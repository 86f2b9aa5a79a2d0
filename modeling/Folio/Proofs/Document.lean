import Mathlib
import Folio.Template.Engine
import Folio.Proofs.Action
import Folio.Proofs.FileSystem.Canonical

/-!
# Folio.Proofs.Document

The page of a single document.

* `writePage_cases`: the making of a page fails and leaves the files as they are, or writes its text.
* `processDocument_atomic`: on failure nothing has changed; on success one file holds the page, and nothing else has
  changed.
* `Deep.document_overwritten`: far below the root, that file can be the document.
-/

namespace Folio

open FileSystem

theorem writeOutput_cases (output : Path) (text : String) (w : World) :
    (∃ cause w', w.fs.write output (Text.encode text) = .error cause ∧ w'.fs = w.fs ∧
      writeOutput output text w = (.error (.io cause), w')) ∨
      ∃ w', w.fs.write output (Text.encode text) = .ok w'.fs ∧ writeOutput output text w = (.ok (), w') := by
  rw [writeOutput, Action.bind_eq]
  dsimp only [Action.report]
  rw [Action.writeText]
  dsimp only
  split
  · next fs hwrite => exact .inr ⟨_, hwrite, rfl⟩
  · next cause hwrite => exact .inl ⟨cause, ⟨w.fs, w.notices ++ [.writing output]⟩, hwrite, rfl, rfl⟩

/-- Why a page is not written: it cannot be made, or its place cannot be written to. -/
def Fails (renderer : Renderer) (kind : DocumentKind) (choices : Choices) (source output : Path) (fs : FileSystem)
    (e : Error) : Prop :=
  pageText renderer kind choices source fs = .error e ∨
    ∃ text cause, pageText renderer kind choices source fs = .ok text ∧
      fs.write output (Text.encode text) = .error cause ∧ e = .io cause

theorem not_fails {renderer : Renderer} {kind : DocumentKind} {choices : Choices} {source output : Path}
    {fs fs' : FileSystem} {text : String} (htext : pageText renderer kind choices source fs = .ok text)
    (hwrite : fs.write output (Text.encode text) = .ok fs') (e : Error) :
    ¬ Fails renderer kind choices source output fs e := by
  rintro (hfails | ⟨text', cause, htext', hwrite', -⟩)
  · rw [htext] at hfails
    cases hfails
  · rw [htext] at htext'
    cases htext'
    rw [hwrite] at hwrite'
    cases hwrite'

theorem writePage_cases {α : Type} (renderer : Renderer) (kind : DocumentKind) (choices : Choices)
    (source output : Path) (next : Action α) (w : World) :
    let page : Action α := do
      let content ← Content.produce kind choices.settings source
      renderToFile renderer choices.template choices.layoutRoots content output
      next
    (∃ e w', Fails renderer kind choices source output w.fs e ∧ w'.fs = w.fs ∧ page w = (.error e, w')) ∨
      ∃ text w', pageText renderer kind choices source w.fs = .ok text ∧
        w.fs.write output (Text.encode text) = .ok w'.fs ∧ page w = next w' := by
  intro page
  have hproduce := observes_produce kind choices.settings source
  obtain ⟨e, w', hcontent, hfs, hrun⟩ | ⟨content, w₁, hcontent, hfs₁, hrun⟩ := Action.Observes.bind_cases hproduce
      (fun content => do
        renderToFile renderer choices.template choices.layoutRoots content output
        next) w
  · refine .inl ⟨e, w', .inl ?_, hfs, hrun⟩
    rw [pageText, hcontent]
  have hpage : page w =
      (renderToFile renderer choices.template choices.layoutRoots content output >>= fun _ => next) w₁ :=
    hrun
  -- Up to here, and while the page is rendered, the files have only been looked at.
  have hrender := observes_render renderer choices.template choices.layoutRoots content
  obtain ⟨e, w', htext, hfs, hrun⟩ | ⟨text, w₂, htext, hfs₂, hrun⟩ :=
    Action.Observes.bind_cases hrender (writeOutput output) w₁
  · rw [← renderToFile] at hrun
    refine .inl ⟨e, w', .inl ?_, hfs.trans hfs₁, ?_⟩
    · rw [pageText, hcontent, ← hfs₁]
      exact htext
    · rw [hpage, Action.bind_eq, hrun]
  rw [← renderToFile] at hrun
  have hpageText : pageText renderer kind choices source w.fs = .ok text := by
    rw [pageText, hcontent, ← hfs₁]
    exact htext
  -- The page is known, and the writing of it is the first step that may change a file.
  obtain ⟨cause, w', hwrite, hfs, hout⟩ | ⟨w', hwrite, hout⟩ := writeOutput_cases output text w₂
  · rw [hfs₂, hfs₁] at hwrite
    refine .inl ⟨.io cause, w', .inr ⟨text, cause, hpageText, hwrite, rfl⟩, hfs.trans (hfs₂.trans hfs₁), ?_⟩
    rw [hpage, Action.bind_eq, hrun, hout]
  · rw [hfs₂, hfs₁] at hwrite
    refine .inr ⟨text, w', hpageText, hwrite, ?_⟩
    rw [hpage, Action.bind_eq, hrun, hout]

theorem read_of_readText {fs : FileSystem} {p : Path} {text : String} (h : fs.readText p = .ok text) :
    ∃ bytes, fs.read p = .ok bytes := by
  rw [FileSystem.readText] at h
  split at h
  · cases h
  · next bytes hbytes => exact ⟨bytes, hbytes⟩

theorem processDocument_same {renderer : Renderer} {kind : DocumentKind} {input : Path} {options : DocumentOptions}
    {w : World} (h : w.fs.sameFile (options.outputFor input) input = true) :
    processDocument renderer kind input options w =
      (.error (.document input.display "output would overwrite the input"), w) := by
  simp only [processDocument, Action.bind_eq, Action.ask, h, if_true, Action.fail]

theorem processDocument_apart {renderer : Renderer} {kind : DocumentKind} {input : Path} {options : DocumentOptions}
    {w : World} (h : w.fs.sameFile (options.outputFor input) input = false) :
    (∃ e w', Fails renderer kind options.toChoices input (options.outputFor input) w.fs e ∧ w'.fs = w.fs ∧
      processDocument renderer kind input options w = (.error e, w')) ∨
      ∃ text w', pageText renderer kind options.toChoices input w.fs = .ok text ∧
        w.fs.write (options.outputFor input) (Text.encode text) = .ok w'.fs ∧
        processDocument renderer kind input options w = (.ok (options.outputFor input), w') := by
  have hpage : processDocument renderer kind input options w =
      (do
        let content ← Content.produce kind options.settings input
        renderToFile renderer options.template options.layoutRoots content (options.outputFor input)
        return options.outputFor input : Action Path) w := by
    simp only [processDocument, Action.bind_eq, Action.ask, h, Bool.false_eq_true, if_false]
  rw [hpage]
  exact writePage_cases renderer kind options.toChoices input (options.outputFor input)
    (pure (options.outputFor input)) w

theorem processDocument_ok {renderer : Renderer} {kind : DocumentKind} {input : Path} {options : DocumentOptions}
    {w : World} (hsame : w.fs.sameFile (options.outputFor input) input = false) {text : String}
    (htext : pageText renderer kind options.toChoices input w.fs = .ok text) {fs : FileSystem}
    (hwrite : w.fs.write (options.outputFor input) (Text.encode text) = .ok fs) :
    (processDocument renderer kind input options w).1 = .ok (options.outputFor input) := by
  obtain ⟨e, w', hfails, -, -⟩ | ⟨text', w', -, -, hrun⟩ := processDocument_apart hsame
  · exact absurd hfails (not_fails htext hwrite e)
  · rw [hrun]

/-- On failure nothing has changed. On success the page stands where the options say, and one file holds its text:
the one that the place leads to, which was a file or was not there. Everything else is as before. That file is the
document itself only where the document and the place are overlooked, and never where all entries have short paths. -/
theorem processDocument_atomic (renderer : Renderer) (kind : DocumentKind) (input : Path) (options : DocumentOptions)
    {w : World} (hfs : w.fs.WellFormed) :
    match processDocument renderer kind input options w with
    | (.error _, w') => w'.fs = w.fs
    | (.ok output, w') =>
      output = defaultOutput options.output input options.format ∧
      ∃ l text, pageText renderer kind options.toChoices input w.fs = .ok text ∧
        w'.fs.locate true output = .ok l ∧ w'.fs.get? l = some (.file (Text.encode text)) ∧
        w.fs.Writable l ∧ (∀ k, k ≠ l → w'.fs.get? k = w.fs.get? k) ∧ w'.fs.current = w.fs.current ∧
        ∃ bytes, w.fs.read input = .ok bytes ∧
          (w'.fs.read input = .ok bytes ∨ w.fs.locate true input = .ok l ∧ w.fs.Overlooked output input) ∧
          (w.fs.ShortPaths → w'.fs.read input = .ok bytes) := by
  cases hsame : w.fs.sameFile (options.outputFor input) input with
  | true => rw [processDocument_same hsame]
  | false =>
    obtain ⟨e, w', -, hkept, hrun⟩ | ⟨page, w', hpage, hwrite, hrun⟩ := processDocument_apart hsame
    · rw [hrun]
      exact hkept
    · rw [hrun]
      obtain ⟨text, htext⟩ := readText_of_pageText hpage
      obtain ⟨bytes, hread⟩ := read_of_readText htext
      obtain ⟨l, hwrote⟩ := wrote_of_write hfs hwrite
      obtain ⟨k, hk, hfile⟩ := locate_of_read hread
      refine ⟨rfl, l, page, hpage, locate_of_grows hwrote.grows hwrote.leads, hwrote.holds, hwrote.free,
        hwrote.frame, hwrote.grows.current, bytes, hread, ?_⟩
      by_cases hover : k = l
      · subst hover
        have hoverlooked := overlooked_of_sameFile hsame hwrote.leads hk
        refine ⟨.inr ⟨hk, hoverlooked⟩, fun hshort => ?_⟩
        exact absurd hoverlooked (not_overlooked hshort hfile hwrote.leads hk)
      · have hkept : w'.fs.read input = .ok bytes := read_of_grows hwrote.grows hk hover hfile
        exact ⟨.inl hkept, fun _ => hkept⟩

/-- A directory with a document and a page that is reached through two links. -/
def linked : FileSystem where
  entries := [
    ([Text.encode "w"], .directory),
    ([Text.encode "w", Text.encode "a.rs"], .file (Text.encode "fn main() \x7b\x7d\n")),
    ([Text.encode "w", Text.encode "a.html"], .file (Text.encode "old")),
    ([Text.encode "w", Text.encode "out"], .directory),
    ([Text.encode "w", Text.encode "out", Text.encode "page"], .link (Path.ofString "../next")),
    ([Text.encode "w", Text.encode "next"], .link (Path.ofString "/w/out/.././a.html"))]
  current := [Text.encode "w"]

def throughLinks : DocumentOptions where
  toChoices := Choices.none
  output := some (Path.ofString "./out/../out//page")

/-- The page of the document there. -/
def linkedPage : String :=
  "<pre><code class=\"language-rs\">fn main() \x7b\x7d\n</code></pre>\n\n\n"

theorem processDocument_throughLinks :
    linked.WellFormed ∧ linked.ShortPaths ∧
    ∃ w' l, processDocument Template.engine .script (Path.ofString "a.rs") throughLinks ⟨linked, []⟩ =
        (.ok (Path.ofString "./out/../out//page"), w') ∧
      w'.fs.locate true (Path.ofString "./out/../out//page") = .ok l ∧
      w'.fs.get? l = some (.file (Text.encode linkedPage)) ∧ (∀ k, k ≠ l → w'.fs.get? k = linked.get? k) ∧
      w'.fs.read (Path.ofString "a.rs") = .ok (Text.encode "fn main() \x7b\x7d\n") := by
  have hlinked : linked.WellFormed := ⟨by decide +kernel, by decide +kernel, by decide +kernel⟩
  have hshort : linked.ShortPaths := by unfold ShortPaths; decide +kernel
  have hsame : linked.sameFile (throughLinks.outputFor (Path.ofString "a.rs")) (Path.ofString "a.rs") = false := by
    cbv
  have hread : linked.readText (Path.ofString "a.rs") = .ok "fn main() \x7b\x7d\n" := by cbv
  have hbytes : linked.read (Path.ofString "a.rs") = .ok (Text.encode "fn main() \x7b\x7d\n") := by cbv
  have hplace : linked.writeLocation (throughLinks.outputFor (Path.ofString "a.rs")) =
      .ok [Text.encode "w", Text.encode "a.html"] := by cbv
  have hpage : pageText Template.engine .script throughLinks.toChoices (Path.ofString "a.rs") linked =
      .ok linkedPage := by
    rw [pageText_of_readText _ _ _ hread]
    decide +kernel
  have hwrite : linked.write (throughLinks.outputFor (Path.ofString "a.rs")) (Text.encode linkedPage) =
      .ok (linked.put [Text.encode "w", Text.encode "a.html"] (.file (Text.encode linkedPage))) := by
    simp only [FileSystem.write, hplace]
  have hok := @processDocument_ok Template.engine .script _ throughLinks ⟨linked, []⟩ hsame _ hpage _ hwrite
  have hatomic := @processDocument_atomic Template.engine .script (Path.ofString "a.rs") throughLinks ⟨linked, []⟩ hlinked
  cases hrun : processDocument Template.engine .script (Path.ofString "a.rs") throughLinks ⟨linked, []⟩ with
  | mk result w' =>
    rw [hrun] at hok hatomic
    obtain rfl : result = .ok (Path.ofString "./out/../out//page") := hok
    obtain ⟨-, l, text, htext, hl, hholds, -, hframe, -, bytes, hold, -, hkept⟩ := hatomic
    cases hpage.symm.trans htext
    cases hbytes.symm.trans hold
    exact ⟨hlinked, hshort, w', l, rfl, hl, hholds, hframe, hkept hshort⟩

/-! ### A document far below the root -/

namespace Deep

/-- The longest name of a directory. -/
def name : Name := List.replicate 255 0x64

def place (n : Nat) : Location := List.replicate n name

def document : Location := place 16 ++ [Text.encode "a.rs"]

/-- Sixteen directories, one in the other, and a document in the last one, where the run is at work. -/
def files : FileSystem where
  entries := (document, .file (Text.encode "x")) :: (List.range 16).map fun n => (place (n + 1), .directory)
  current := place 16

def options : DocumentOptions where
  toChoices := Choices.none
  output := some (Path.ofString "./a.rs")

def page : String :=
  "<pre><code class=\"language-rs\">x</code></pre>\n\n\n"

theorem nodup_keys : (files.entries.map Prod.fst).Nodup := by
  refine List.Nodup.of_map List.length ?_
  simp only [files, document, place, List.map_cons, List.map_map, Function.comp_def, List.length_append,
    List.length_replicate]
  decide

theorem get?_place {n : Nat} (h : n ≤ 16) : files.get? (place n) = some .directory := by
  cases n with
  | zero => exact get?_root files
  | succ n =>
    refine get?_of_nodup nodup_keys (by simp [place]) (List.mem_cons_of_mem _ ?_)
    exact List.mem_map.2 ⟨n, List.mem_range.2 h, rfl⟩

theorem get?_document : files.get? document = some (.file (Text.encode "x")) :=
  get?_of_nodup nodup_keys (by simp [document]) List.mem_cons_self

theorem wellFormed : files.WellFormed := by
  refine ⟨nodup_keys, fun p hp => ?_, get?_place (le_refl 16)⟩
  obtain rfl | hp := List.mem_cons.1 hp
  · exact isPlaced_concat.2 ⟨by decide, get?_place (le_refl 16)⟩
  · obtain ⟨n, hn, rfl⟩ := List.mem_map.1 hp
    rw [place, List.replicate_succ', isPlaced_concat]
    exact ⟨by decide +kernel, get?_place (List.mem_range.1 hn).le⟩

theorem namesEntry : NamesEntry (Text.encode "a.rs") :=
  ⟨by decide, by decide, by decide⟩

theorem follow_document : files.follow true maxLinks (place 16) [Text.encode "a.rs"] = .ok document := by
  have hlink : ∀ target, Entry.file (Text.encode "x") ≠ .link target := fun _ heq => by cases heq
  exact (follow_entry (get?_place (le_refl 16)) namesEntry get?_document hlink).trans follow_nil

theorem locate_document : files.locate true (Path.ofString "a.rs") = .ok document := by
  have hparts : Path.split (Path.ofString "a.rs").bytes = [Text.encode "a.rs"] := by decide
  have hcheck : checkPath (Path.ofString "a.rs") = .ok () := by decide
  rw [locate, hcheck, hparts, if_neg (by decide)]
  exact follow_document

theorem parts_page : Path.split (Path.ofString "./a.rs").bytes = [Path.dotName, Text.encode "a.rs"] := by
  decide

theorem locate_page : files.locate true (Path.ofString "./a.rs") = .ok document := by
  have hcheck : checkPath (Path.ofString "./a.rs") = .ok () := by decide
  rw [locate, hcheck, parts_page, if_neg (by decide)]
  exact (follow_idle (get?_place (le_refl 16)) (.inr rfl)).trans follow_document

/-- The path from the root to the document is too long to be looked up. -/
theorem canonical?_page : files.canonical? (Path.ofString "./a.rs") = none := by
  have hlong : maxPathLength ≤ pathLength (place 16 ++ [Text.encode "a.rs"]) := by
    simp only [pathLength, place, name, List.length_flatMap, List.length_cons, List.map_append, List.map_replicate,
      List.sum_append, List.sum_replicate, List.length_replicate]
    decide
  have haccepted : ¬ ((Path.ofString "./a.rs").bytes = [] ∨ (Path.ofString "./a.rs").bytes.contains 0 = true) := by
    decide
  have hdir : files.get? (place 16) = some .directory := get?_place (le_refl 16)
  rw [canonical?, if_neg haccepted, parts_page, if_neg (by decide)]
  exact (canonicalFrom_idle hdir (.inr rfl)).trans (canonicalFrom_long hdir namesEntry hlong)

/-- The page of a document takes its place: the two are the same file, and they are told apart by their spelling. -/
theorem document_overwritten :
    files.WellFormed ∧ files.read (Path.ofString "a.rs") = .ok (Text.encode "x") ∧
    ∃ w', processDocument Template.engine .script (Path.ofString "a.rs") options ⟨files, []⟩ =
        (.ok (Path.ofString "./a.rs"), w') ∧
      w'.fs.read (Path.ofString "a.rs") = .ok (Text.encode page) := by
  have hread : files.read (Path.ofString "a.rs") = .ok (Text.encode "x") :=
    read_eq_of_locate locate_document get?_document
  have hsame : files.sameFile (Path.ofString "./a.rs") (Path.ofString "a.rs") = false := by
    simp only [sameFile, canonical?_page]
    decide
  have htext : files.readText (Path.ofString "a.rs") = .ok "x" := by
    rw [readText, hread]
    rfl
  have hpage : pageText Template.engine .script options.toChoices (Path.ofString "a.rs") files = .ok page := by
    rw [pageText_of_readText _ _ _ htext]
    decide +kernel
  have hwrite := write_of_file locate_page get?_document (Text.encode page)
  obtain ⟨e, w', hfails, -, -⟩ | ⟨text, w', htext', hwrite', hrun⟩ :=
    @processDocument_apart Template.engine .script (Path.ofString "a.rs") options ⟨files, []⟩ hsame
  · exact absurd hfails (not_fails hpage hwrite e)
  · cases hpage.symm.trans htext'
    obtain ⟨l, hwrote⟩ := wrote_of_write wellFormed hwrite'
    cases hwrote.leads.symm.trans locate_page
    exact ⟨wellFormed, hread, w', hrun, read_eq_of_locate (locate_of_grows hwrote.grows locate_document) hwrote.holds⟩

end Deep

end Folio
