import Folio.Proofs.Batch.Again
import Folio.Proofs.Batch.Renderings
import Folio.Proofs.Template.Search

/-!
# Folio.Proofs.Overwrites

What becomes of the template of a run.

* `Method.Overwrites`: a page is written where another path leads.
* `Renders.keeps`: a file is as it was until a page is written over it.
* `MadeWith`: a page is made with a template that holds certain bytes.
* `template_kept`: a document or a directory is rendered with the template as it was in the beginning, and this is there
  at the end, unless a page has been written over it.
* `Overwritten`: a page that is written over its template.
-/

namespace Folio

open Folio.Path FileSystem

namespace Method

/-- The page is written, and its place is that of another path. -/
def Overwrites (m : Method) (p : Path) (r : Rendering) : Prop :=
  r.before.locate true r.target = r.before.locate true p ∧ ∃ after, m.Writes r after

variable {m : Method} {fs fs' : FileSystem}

/-- A page changes the file that its target leads to, and nothing else. -/
theorem Writes.grows {r : Rendering} (h : m.Writes r fs') (hwf : r.before.WellFormed) :
    fs'.WellFormed ∧ ∃ l, r.before.locate true r.target = .ok l ∧ Grows (· = l) r.before fs' := by
  obtain ⟨text, -, hwrite⟩ := h
  obtain ⟨l, hwrote⟩ := wrote_of_write hwf hwrite
  exact ⟨hwrote.wellFormed, l, hwrote.leads, hwrote.grows⟩

/-- A file is as it was until a page is written over it. -/
theorem Renders.keeps {rs : List Rendering} {failure : Option Error} (h : m.Renders fs rs failure fs')
    (hwf : fs.WellFormed) {p : Path} {bytes : List UInt8} (hread : fs.read p = .ok bytes) :
    (fs'.read p = .ok bytes ∧ ∀ r ∈ rs, r.before.read p = .ok bytes) ∨
      ∃ front r back, rs = front ++ r :: back ∧ m.Overwrites p r ∧
        ∀ s ∈ front ++ [r], s.before.read p = .ok bytes := by
  induction h with
  | done hprepared => exact .inl ⟨hprepared.read hwf hread, fun r hr => absurd hr List.not_mem_nil⟩
  | failed hprepared _ _ =>
    have hbefore := hprepared.read hwf hread
    exact .inl ⟨hbefore, fun s hs => List.mem_singleton.1 hs ▸ hbefore⟩
  | @written fs fs₁ fs' r rs failure hprepared _ hwrites _ ih =>
    have hbefore := hprepared.read hwf hread
    obtain ⟨hwf₁, l, hl, hgrows⟩ := hwrites.grows (hprepared.grows hwf).1
    obtain ⟨k, hk, hfile⟩ := locate_of_read hbefore
    by_cases hsame : k = l
    · refine .inr ⟨[], r, rs, rfl, ⟨?_, fs₁, hwrites⟩, fun s hs => List.mem_singleton.1 hs ▸ hbefore⟩
      rw [hl, hk, hsame]
    · obtain ⟨hend, hall⟩ | ⟨front, s, back, rfl, hover, hall⟩ := ih hwf₁ (read_of_grows hgrows hk hsame hfile)
      · exact .inl ⟨hend, List.forall_mem_cons.2 ⟨hbefore, hall⟩⟩
      · exact .inr ⟨r :: front, s, back, rfl, hover, List.forall_mem_cons.2 ⟨hbefore, hall⟩⟩

end Method

/-- A page is made with a template that holds certain bytes: they are there when the page is rendered, and they are the
text that is filled in, or the main template of the engine. -/
structure MadeWith (renderer : Renderer) (choices : Choices) (template : Path) (bytes : List UInt8) (r : Rendering) :
    Prop where
  reads : r.before.read template = .ok bytes
  plain : isEngineTemplate template = false → (Method.ofChoices renderer choices).text r.before r.content =
    match Text.decode? bytes with
    | none => .error (.io .invalidUtf8)
    | some text => plainPage (some text) r.content
  engine : ∀ name text, template.fileName?.bind Text.decode? = some name → Template.Safe (Text.encode name) →
    Text.decode? bytes = some text →
      Template.findSource r.before name (renderCall template name choices.layoutRoots r.content).searchDirs = .ok text

theorem madeWith_of_read (renderer : Renderer) {choices : Choices} {template : Path} {bytes : List UInt8}
    {r : Rendering} (htemplate : choices.template = some template) (hread : r.before.read template = .ok bytes) :
    MadeWith renderer choices template bytes r where
  reads := hread
  plain hplain := by
    have hchoose : Strategy.choose choices.template = .plain template := by
      rw [htemplate, Strategy.choose, hplain, if_neg Bool.false_ne_true]
    rw [Method.ofChoices]
    dsimp only
    rw [result_render, hchoose]
    dsimp only
    rw [readText, hread]
    dsimp only
    cases Text.decode? bytes <;> rfl
  engine name text hname hsafe htext := by
    refine Template.findSource_beside hname ?_ hsafe choices.layoutRoots
    rw [readText, hread]
    dsimp only
    rw [htext]

/-- The page of a single document changes another file only where that is its place. -/
theorem processDocument_keeps (renderer : Renderer) (kind : DocumentKind) (input : Path) (options : DocumentOptions)
    {w : World} (hfs : w.fs.WellFormed) {p : Path} {bytes : List UInt8} (hread : w.fs.read p = .ok bytes) :
    let run := processDocument renderer kind input options w
    run.2.fs.read p = .ok bytes ∨
      run.1 = .ok (options.outputFor input) ∧ w.fs.locate true (options.outputFor input) = w.fs.locate true p ∧
        ∃ page, pageText renderer kind options.toChoices input w.fs = .ok page ∧
          run.2.fs.read p = .ok (Text.encode page) := by
  dsimp only
  obtain ⟨l, hl, hfile⟩ := locate_of_read hread
  cases hsame : w.fs.sameFile (options.outputFor input) input with
  | true =>
    rw [processDocument_same hsame]
    exact .inl hread
  | false =>
    obtain ⟨e, w', -, hkept, hrun⟩ | ⟨page, w', hpage, hwrite, hrun⟩ :=
      @processDocument_apart renderer kind input options w hsame
    · rw [hrun]
      exact .inl (hkept ▸ hread)
    · obtain ⟨k, hwrote⟩ := wrote_of_write hfs hwrite
      rw [hrun]
      by_cases hover : k = l
      · subst hover
        refine .inr ⟨rfl, hwrote.leads.trans hl.symm, page, hpage, ?_⟩
        exact read_eq_of_locate (locate_of_grows hwrote.grows hl) hwrote.holds
      · exact .inl (read_of_grows hwrote.grows hl (Ne.symm hover) hfile)

/-- The template of a run is as it was when a document is rendered, and at the end, up to a page that is written over it.
A page of a single document is written over the template only where its place is the same, and then the template holds
the page. -/
theorem template_kept (renderer : Renderer) {template : Path} {bytes : List UInt8} {w : World} (hfs : w.fs.WellFormed)
    (hread : w.fs.read template = .ok bytes) :
    (∀ kind input (options : DocumentOptions), options.template = some template →
      let run := processDocument renderer kind input options w
      run.2.fs.read template = .ok bytes ∨
        run.1 = .ok (options.outputFor input) ∧
          w.fs.locate true (options.outputFor input) = w.fs.locate true template ∧
          ∃ page, pageText renderer kind options.toChoices input w.fs = .ok page ∧
            run.2.fs.read template = .ok (Text.encode page)) ∧
    ∀ input (options : DirectoryOptions), options.template = some template →
      let m := Method.ofChoices renderer options.toChoices
      let run := processDirectory renderer input options w
      ∃ rs, m.Rendered w rs run ∧ (∀ pages, run.1 = .ok pages → pages = rs.map Rendering.target) ∧
        (∀ r ∈ rs, ∃ names, r.source = input.below names ∧
          r.target = targetPath ⟨unsplit names⟩ options.outputDir options.outputFormat) ∧
        ((run.2.fs.read template = .ok bytes ∧ ∀ r ∈ rs, MadeWith renderer options.toChoices template bytes r) ∨
          ∃ front r back, rs = front ++ r :: back ∧ m.Overwrites template r ∧
            ∀ s ∈ front ++ [r], MadeWith renderer options.toChoices template bytes s) := by
  constructor
  · exact fun kind input options _ => processDocument_keeps renderer kind input options hfs hread
  · intro input options htemplate m run
    -- A run that is refused has rendered nothing, and then there is nothing to show for the places.
    obtain ⟨rs, hrendered, hpages, hplaces⟩ : ∃ rs, m.Rendered w rs run ∧
        (∀ pages, run.1 = .ok pages → pages = rs.map Rendering.target) ∧
        ∀ r ∈ rs, ∃ names, r.source = input.below names ∧
          r.target = targetPath ⟨unsplit names⟩ options.outputDir options.outputFormat := by
      obtain ⟨hnone, e, he⟩ | ⟨ignored, -, rs, hrendered, hchosen, hpages⟩ :=
        processDirectory_rendered renderer input options w
      · refine ⟨[], hnone, fun pages hpages => ?_, fun r hr => absurd hr List.not_mem_nil⟩
        cases he.symm.trans hpages
      · refine ⟨rs, hrendered, hpages, fun r hr => ?_⟩
        obtain ⟨names, htakes⟩ := hchosen.takes r hr
        exact ⟨names, htakes.source, htakes.target⟩
    refine ⟨rs, hrendered, hpages, hplaces, ?_⟩
    obtain ⟨hend, hall⟩ | ⟨front, r, back, hrs, hover, hall⟩ := hrendered.files.keeps hfs hread
    · exact .inl ⟨hend, fun r hr => madeWith_of_read renderer htemplate (hall r hr)⟩
    · exact .inr ⟨front, r, back, hrs, hover, fun s hs => madeWith_of_read renderer htemplate (hall s hs)⟩

/-- A page is written beside the template. -/
theorem Reignored.template_stays :
    files.WellFormed ∧ options.template = some (Path.ofString "t.txt") ∧
    files.read (Path.ofString "t.txt") = .ok (Text.encode "*.rs") ∧
    ∃ w', processDirectory Template.engine (Path.ofString "in") options ⟨files, []⟩ =
        (.ok [Path.ofString "out/a.html"], w') ∧
      w'.fs.read (Path.ofString "t.txt") = .ok (Text.encode "*.rs") := by
  have hread : files.read (Path.ofString "t.txt") = .ok (Text.encode "*.rs") := by cbv
  have hlocate : files.locate true (Path.ofString "t.txt") = .ok (Collection.named ["w", "t.txt"]) := by cbv
  have hpage : files.locate true (Path.ofString "out/a.html") = .ok (Collection.named ["w", "out", "a.html"]) := by cbv
  have htemplate : options.template = some (Path.ofString "t.txt") := rfl
  obtain ⟨notices, hrun⟩ := firstRun
  refine ⟨begins.wf, htemplate, hread, _, hrun, ?_⟩
  obtain ⟨-, hdirectory⟩ := @template_kept Template.engine (Path.ofString "t.txt") _ ⟨files, []⟩ begins.wf hread
  obtain ⟨rs, hrendered, hpages, -, hcases⟩ := hdirectory (Path.ofString "in") options htemplate
  rw [hrun] at hrendered hpages hcases
  obtain ⟨hend, -⟩ | ⟨front, r, back, rfl, ⟨hsame, -⟩, -⟩ := hcases
  · exact hend
  · -- there is one page, and it is not the template
    have htargets := hpages _ rfl
    obtain rfl : front = [] := by
      have hlength := congrArg List.length htargets
      simp only [List.length_map, List.length_append, List.length_cons, List.length_nil] at hlength
      exact List.length_eq_zero_iff.1 (by omega)
    have htarget : Path.ofString "out/a.html" = r.target := (List.cons.inj htargets).1
    have hgrows := (hrendered.files.prepared.grows begins.wf).2
    rw [← htarget, locate_of_grows hgrows hpage, locate_of_grows hgrows hlocate] at hsame
    exact absurd (Except.ok.inj hsame) (by decide)

namespace Overwritten

open Collection

/-- The page of a document is put where its template is. -/
def options : DocumentOptions where
  toChoices := Collection.options.toChoices
  output := some (Path.ofString "page.html")

theorem template_overwritten :
    options.template = some (Path.ofString "page.html") ∧
    files.read (Path.ofString "page.html") = .ok (Text.encode pageTemplate) ∧
    ∃ w', processDocument Template.engine .script (Path.ofString "docs/a.rs") options ⟨files, []⟩ =
        (.ok (Path.ofString "page.html"), w') ∧
      w'.fs.read (Path.ofString "page.html") = .ok (Text.encode "<h1>a</h1>") := by
  have hread : files.read (Path.ofString "page.html") = .ok (Text.encode pageTemplate) := by cbv
  have hsame : files.sameFile (options.outputFor (Path.ofString "docs/a.rs")) (Path.ofString "docs/a.rs") = false := by
    cbv
  have hsource : files.readText (Path.ofString "docs/a.rs") = .ok "" := by cbv
  have htext : files.readText (Path.ofString "page.html") = .ok pageTemplate := by cbv
  have hpage : pageText Template.engine .script options.toChoices (Path.ofString "docs/a.rs") files = .ok "<h1>a</h1>" :=
    pageText_plain rfl hsource htext rfl (by decide) (by decide +kernel)
  have hplace : files.writeLocation (Path.ofString "page.html") = .ok (named ["w", "page.html"]) := by cbv
  have hwrite : files.write (options.outputFor (Path.ofString "docs/a.rs")) (Text.encode "<h1>a</h1>") =
      .ok (files.put (named ["w", "page.html"]) (.file (Text.encode "<h1>a</h1>"))) := by
    change files.write (Path.ofString "page.html") _ = _
    rw [FileSystem.write, hplace]
  obtain ⟨e, w', hfails, -, -⟩ | ⟨text, w', htext', hwrite', hrun⟩ :=
    @processDocument_apart Template.engine .script (Path.ofString "docs/a.rs") options ⟨files, []⟩ hsame
  · exact absurd hfails (not_fails hpage hwrite e)
  · cases hpage.symm.trans htext'
    refine ⟨rfl, hread, w', hrun, ?_⟩
    rw [← Except.ok.inj (hwrite.symm.trans hwrite')]
    cbv

end Overwritten
end Folio
