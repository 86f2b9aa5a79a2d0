import Folio.Proofs.Document
import Folio.Proofs.Notices
import Folio.Proofs.Batch.Page
import Folio.Proofs.Batch.Visit
import Folio.Proofs.FileSystem.Parents

/-!
# Folio.Proofs.Batch.Run

The work on one file.

* `Batch.Makes`, `Batch.Handles`: what the making of a page, and the work on a file, come to.
* `Batch.documents`, `Batch.pages`: the documents below a directory, and where their pages are put.
* `Begins`: what holds when a run begins; then no page is put where a document is (`Begins.not_pages`).
* `Page`, `Page.step`: how the page of a document comes into being in the midst of a run.
-/

namespace Folio

open Folio.Path FileSystem

/-! ### What the work comes to -/

namespace Batch

/-- What the making of a page comes to: the directories for it are made before its text. -/
inductive Makes (b : Batch) (kind : DocumentKind) (source target : Path) (fs : FileSystem) :
    Except Error Unit → FileSystem → Prop where
  | noDirectory {fs₁ : FileSystem} {cause : IoError} (hprepare : fs.prepare target = (fs₁, .error cause)) :
      Makes b kind source target fs (.error (.io cause)) fs₁
  | noPage {fs₁ : FileSystem} {e : Error} (hprepare : fs.prepare target = (fs₁, .ok ()))
      (hfails : Fails b.renderer kind b.options.toChoices source target fs₁ e) :
      Makes b kind source target fs (.error e) fs₁
  | page {fs₁ fs₂ : FileSystem} {text : String} (hprepare : fs.prepare target = (fs₁, .ok ()))
      (htext : pageText b.renderer kind b.options.toChoices source fs₁ = .ok text)
      (hwrite : fs₁.write target (Text.encode text) = .ok fs₂) : Makes b kind source target fs (.ok ()) fs₂

/-- What the work on a file comes to. -/
inductive Handles (b : Batch) (written : Written) (p : Pending) (fs : FileSystem) :
    Except Error Written → FileSystem → Prop where
  | passed (hno : (b.skips p.relative || (b.kind? p.path).isNone) = true) : Handles b written p fs (.ok written) fs
  | taken {first : Path} (hskip : b.skips p.relative = false) (hkind : (b.kind? p.path).isSome = true)
      (hfirst : written.source? (b.target p.relative) = some first) :
      Handles b written p fs (.error (.document p.path.display
        ("output '" ++ (b.target p.relative).display ++ "' is already generated from '" ++ first.display ++ "'"))) fs
  | failed {kind : DocumentKind} {e : Error} {fs' : FileSystem} (hskip : b.skips p.relative = false)
      (hkind : b.kind? p.path = some kind) (hnew : written.source? (b.target p.relative) = none)
      (hmakes : b.Makes kind p.path (b.target p.relative) fs (.error e) fs') : Handles b written p fs (.error e) fs'
  | made {kind : DocumentKind} {fs' : FileSystem} (hskip : b.skips p.relative = false)
      (hkind : b.kind? p.path = some kind) (hnew : written.source? (b.target p.relative) = none)
      (hmakes : b.Makes kind p.path (b.target p.relative) fs (.ok ()) fs') :
      Handles b written p fs (.ok ((b.target p.relative, p.path) :: written)) fs'

theorem writePage_eq (b : Batch) (kind : DocumentKind) (source target : Path) (w : World) :
    b.writePage kind source target w =
      match w.fs.prepare target with
      | (fs₁, .error cause) => (.error (.io cause), { w with fs := fs₁ })
      | (fs₁, .ok ()) => (do
          let content ← Content.produce kind b.options.settings source
          renderToFile b.renderer b.options.template b.options.layoutRoots content target
          Action.report (.generated target) : Action Unit) { w with fs := fs₁ } := by
  rw [writePage, prepare]
  cases target.parent? with
  | none => rfl
  | some parent =>
    dsimp only
    rw [Action.bind_eq]
    cases hmade : w.fs.makeDirectories parent with
    | mk fs₁ made =>
      cases made with
      | error cause =>
        have hrun : Action.makeDirectories parent w = (.error (.io cause), { w with fs := fs₁ }) := by
          rw [Action.makeDirectories, hmade]
        rw [hrun]
      | ok done =>
        have hrun : Action.makeDirectories parent w = (.ok (), { w with fs := fs₁ }) := by
          rw [Action.makeDirectories, hmade]
        rw [hrun]

theorem writePage_makes (b : Batch) (kind : DocumentKind) (source target : Path) (w : World) :
    b.Makes kind source target w.fs (b.writePage kind source target w).1 (b.writePage kind source target w).2.fs := by
  rw [writePage_eq]
  cases hprepare : w.fs.prepare target with
  | mk fs₁ made =>
    cases made with
    | error cause => exact .noDirectory hprepare
    | ok done =>
      dsimp only
      obtain ⟨e, w', hfails, hfs, hrun⟩ | ⟨text, w', htext, hwrite, hrun⟩ := writePage_cases b.renderer kind
        b.options.toChoices source target (Action.report (.generated target)) { w with fs := fs₁ }
      · rw [hrun, hfs]
        exact .noPage hprepare hfails
      · rw [hrun]
        exact .page hprepare htext hwrite

theorem processFile_handles (b : Batch) (written : Written) (p : Pending) (w : World) :
    b.Handles written p w.fs (b.processFile written p w).1 (b.processFile written p w).2.fs := by
  rw [processFile]
  cases hskip : b.skips p.relative with
  | true =>
    rw [if_pos rfl]
    exact .passed (by rw [hskip, Bool.true_or])
  | false =>
    rw [if_neg Bool.false_ne_true]
    cases hkind : b.kind? p.path with
    | none => exact .passed (by rw [hkind, Option.isNone_none, Bool.or_true])
    | some kind =>
      dsimp only
      cases hsource : written.source? (b.target p.relative) with
      | some first => exact .taken hskip (by rw [hkind, Option.isSome_some]) hsource
      | none =>
        have hmakes := b.writePage_makes kind p.path (b.target p.relative) w
        dsimp only
        rw [Action.bind_eq]
        split
        · next hrun =>
          rw [hrun] at hmakes
          exact .made hskip hkind hsource hmakes
        · next hrun =>
          rw [hrun] at hmakes
          exact .failed hskip hkind hsource hmakes

theorem writePage_generated (b : Batch) (kind : DocumentKind) (source target : Path) (w : World) :
    match b.writePage kind source target w with
    | (.ok _, w') => w'.generated = w.generated ++ [target]
    | (.error _, w') => w'.generated = w.generated := by
  rw [writePage_eq]
  cases w.fs.prepare target with
  | mk fs₁ made =>
    cases made with
    | error cause => rfl
    | ok done =>
      have hquiet : (Content.produce kind b.options.settings source >>= fun content =>
          renderToFile b.renderer b.options.template b.options.layoutRoots content target).Reports Notice.IsQuiet :=
        (reports_produce kind b.options.settings (P := Notice.IsQuiet) rfl).bind fun content =>
          reports_renderToFile b.renderer _ _ content (fun _ => rfl) (fun _ => rfl) rfl
      have hpage := hquiet.bind_generated target { w with fs := fs₁ }
      rw [Action.bind_assoc] at hpage
      exact hpage

/-- The pages that are reported of a file are those that have been written for it. -/
theorem processFile_generated (b : Batch) (written : Written) (p : Pending) (w : World) :
    match b.processFile written p w with
    | (.ok written', w') =>
      ∃ made, written' = made ++ written ∧ w'.generated = w.generated ++ made.reverse.map Prod.fst
    | (.error _, w') => w'.generated = w.generated := by
  have hpassed : ∀ n : Notice, n.IsQuiet → ∃ made, written = made ++ written ∧
      World.generated { w with notices := w.notices ++ [n] } = w.generated ++ made.reverse.map Prod.fst := by
    intro n hn
    refine ⟨[], rfl, ?_⟩
    exact ((Action.reports_report hn).generated w).trans (List.append_nil _).symm
  rw [processFile]
  cases b.skips p.relative with
  | true => exact hpassed _ rfl
  | false =>
    rw [if_neg Bool.false_ne_true]
    cases b.kind? p.path with
    | none => exact hpassed _ rfl
    | some kind =>
      dsimp only
      cases written.source? (b.target p.relative) with
      | some first => rfl
      | none =>
        have hpage := b.writePage_generated kind p.path (b.target p.relative) w
        dsimp only
        rw [Action.bind_eq]
        cases hrun : b.writePage kind p.path (b.target p.relative) w with
        | mk result w₁ =>
          rw [hrun] at hpage
          cases result with
          | error e => exact hpage
          | ok done => exact ⟨[(b.target p.relative, p.path)], rfl, hpage⟩

end Batch

/-! ### Work that succeeds -/

theorem writePage_ok {b : Batch} {kind : DocumentKind} {source target : Path} {fs fs₁ fs₂ : FileSystem}
    {notices : List Notice} {text : String} (hprepare : fs.prepare target = (fs₁, .ok ()))
    (htext : pageText b.renderer kind b.options.toChoices source fs₁ = .ok text)
    (hwrite : fs₁.write target (Text.encode text) = .ok fs₂) :
    ∃ notices', b.writePage kind source target ⟨fs, notices⟩ = (.ok (), ⟨fs₂, notices'⟩) := by
  rw [Batch.writePage_eq, hprepare]
  dsimp only
  obtain ⟨e, w', hfails, -, -⟩ | ⟨text', w', htext', hwrite', hrun⟩ :=
    writePage_cases b.renderer kind b.options.toChoices source target (Action.report (.generated target)) ⟨fs₁, notices⟩
  · exact absurd hfails (not_fails htext hwrite e)
  · rw [htext] at htext'
    cases htext'
    rw [hwrite] at hwrite'
    cases hwrite'
    exact ⟨_, hrun⟩

theorem processFile_ok {b : Batch} {written : Written} {p : Pending} {kind : DocumentKind}
    {fs fs₁ fs₂ : FileSystem} {notices : List Notice} {text : String} (hskip : b.skips p.relative = false)
    (hkind : b.kind? p.path = some kind) (hnew : written.source? (b.target p.relative) = none)
    (hprepare : fs.prepare (b.target p.relative) = (fs₁, .ok ()))
    (htext : pageText b.renderer kind b.options.toChoices p.path fs₁ = .ok text)
    (hwrite : fs₁.write (b.target p.relative) (Text.encode text) = .ok fs₂) :
    ∃ notices', b.processFile written p ⟨fs, notices⟩ =
      (.ok ((b.target p.relative, p.path) :: written), ⟨fs₂, notices'⟩) := by
  obtain ⟨notices', hrun⟩ := @writePage_ok b kind p.path _ _ _ _ notices text hprepare htext hwrite
  refine ⟨notices', ?_⟩
  rw [Batch.processFile, hskip, if_neg Bool.false_ne_true, hkind]
  dsimp only
  rw [hnew]
  dsimp only
  rw [Action.bind_of_ok _ hrun]
  rfl

theorem processFile_passed {b : Batch} {p : Pending} (h : (b.skips p.relative || (b.kind? p.path).isNone) = true)
    (written : Written) (fs : FileSystem) (notices : List Notice) :
    ∃ notices', b.processFile written p ⟨fs, notices⟩ = (.ok written, ⟨fs, notices'⟩) := by
  rw [Batch.processFile]
  cases hskip : b.skips p.relative with
  | true =>
    rw [if_pos rfl]
    exact ⟨_, rfl⟩
  | false =>
    rw [hskip, Bool.false_or, Option.isNone_iff_eq_none] at h
    rw [if_neg Bool.false_ne_true, h]
    exact ⟨_, rfl⟩

/-- A document whose page has the place of an earlier one fails. -/
theorem processFile_taken {b : Batch} {written : Written} {p : Pending} {kind : DocumentKind} {first : Path}
    (hskip : b.skips p.relative = false) (hkind : b.kind? p.path = some kind)
    (hfirst : written.source? (b.target p.relative) = some first) (w : World) :
    b.processFile written p w = (.error (.document p.path.display ("output '" ++ (b.target p.relative).display ++
      "' is already generated from '" ++ first.display ++ "'")), w) := by
  rw [Batch.processFile, hskip, if_neg Bool.false_ne_true, hkind]
  dsimp only
  rw [hfirst]
  rfl

/-! ### The beginning of a run -/

namespace Batch

/-- The documents below a directory, in the order of the visit. -/
def documents (b : Batch) (fs : FileSystem) (input : Path) (root : Location) : List (List Name) :=
  (fs.filesBelow root).filter (b.isDocument input)

/-- Where pages are written. -/
def pages (b : Batch) (fs : FileSystem) (input : Path) (root : Location) (l : Location) : Prop :=
  ∃ names ∈ b.documents fs input root, fs.Leads (b.pageOf names) l

end Batch

/-- What holds when a run begins: the directory is there, pages are told apart from documents, and no link stands
below the output directory. -/
structure Begins (b : Batch) (fs : FileSystem) (input : Path) (root : Location) : Prop where
  wf : fs.WellFormed
  leads : fs.locate true input = .ok root
  directory : fs.get? root = some .directory
  distinct : b.Distinct
  links : fs.LinklessBelow b.options.outputDir

variable {b : Batch} {input : Path} {root : Location} {fs₀ fs fs' : FileSystem}

theorem Begins.file_document (h : Begins b fs₀ input root) {names : List Name}
    (hmem : names ∈ b.documents fs₀ input root) : ∃ bytes, fs₀.get? (root ++ names) = some (.file bytes) :=
  (mem_filesBelow h.wf).1 (List.mem_filter.1 hmem).1

theorem Begins.isName_document (h : Begins b fs₀ input root) {names : List Name}
    (hmem : names ∈ b.documents fs₀ input root) : names ≠ [] ∧ ∀ name ∈ names, isName name = true := by
  obtain ⟨bytes, hfile⟩ := h.file_document hmem
  refine ⟨?_, fun name hname => h.wf.isName_of_mem hfile name (List.mem_append_right _ hname)⟩
  rintro rfl
  rw [List.append_nil, h.directory] at hfile
  cases hfile

/-- A page that takes the place of a file stands below the output directory. -/
theorem Begins.place_of_page (h : Begins b fs₀ input root) {l : Location} (hpage : b.pages fs₀ input root l)
    {bytes : List UInt8} (hfile : fs₀.get? l = some (.file bytes)) :
    ∃ names ∈ b.documents fs₀ input root, ∃ page r, HasPage b.options.outputFormat names page ∧
      fs₀.Leads b.options.outputDir r ∧ l = r ++ page := by
  obtain ⟨names, hmem, pages, fs, hwf, hgrows, hresolve⟩ := hpage
  obtain ⟨bytes', hfile'⟩ := (hgrows.change _).file hfile
  obtain ⟨hne, hnames⟩ := h.isName_document hmem
  have hdoc := (List.mem_filter.1 hmem).2
  rw [Batch.isDocument, Bool.and_eq_true] at hdoc
  obtain ⟨kind, hkind⟩ := Option.isSome_iff_exists.1 hdoc.2
  obtain ⟨page, r, hhas, hr, heq⟩ :=
    location_of_page hwf hgrows h.links hne hnames hkind hresolve (.inr ⟨bytes', hfile'⟩)
  exact ⟨names, hmem, page, r, hhas, ⟨pages, fs, hwf, hgrows, hr⟩, heq⟩

/-- No page is put where a document is. -/
theorem Begins.not_pages (h : Begins b fs₀ input root) {names : List Name}
    (hmem : names ∈ b.documents fs₀ input root) : ¬ b.pages fs₀ input root (root ++ names) := by
  intro hpage
  obtain ⟨bytes, hfile⟩ := h.file_document hmem
  obtain ⟨hne, hnames⟩ := h.isName_document hmem
  obtain ⟨other, hother, page, r, hhas, -, heq⟩ := h.place_of_page hpage hfile
  have hnot := @not_isDocument_of_place b input other page h.distinct hhas (h.isName_document hother).2 r root names
    hne hnames heq
  rw [(List.mem_filter.1 hmem).2] at hnot
  cases hnot

/-- No page is put at a file that does not stand below the output directory. -/
theorem Begins.aside_outside (h : Begins b fs₀ input root) {p : Path} {l : Location} {bytes : List UInt8}
    (hl : fs₀.locate true p = .ok l) (hfile : fs₀.get? l = some (.file bytes))
    (hout : ∀ r, fs₀.Leads b.options.outputDir r → ¬ r <+: l) : fs₀.Aside (b.pages fs₀ input root) p := by
  intro k hk hpage
  rw [hk.eq hl] at hpage
  obtain ⟨-, -, page, r, -, hr, rfl⟩ := h.place_of_page hpage hfile
  exact hout r hr (List.prefix_append r page)

/-! ### The page of a document -/

/-- The page of a document has been written: its text is made after the directories for it, and put at `l`. -/
structure Page (b : Batch) (input : Path) (names : List Name) (fs fs₁ fs' : FileSystem) (kind : DocumentKind)
    (text : String) (l : Location) : Prop where
  ofKind : b.kind? (input.below names) = some kind
  prepared : fs.prepare (b.pageOf names) = (fs₁, .ok ())
  grows : Grows (fun _ => False) fs fs₁
  made : pageText b.renderer kind b.options.toChoices (input.below names) fs₁ = .ok text
  wrote : Wrote fs₁ fs' (b.pageOf names) (Text.encode text) l
  wellFormed : fs₁.WellFormed

theorem Pending.Stands.isDocument {p : Pending} (hp : p.Stands fs input root) (hskip : b.skips p.relative = false)
    (hkind : (b.kind? p.path).isSome = true) : b.isDocument input p.names = true := by
  rw [hp.path] at hkind
  rw [Batch.isDocument, hkind, Bool.and_true, ← Pending.relative, hskip, Bool.not_false]

theorem Batch.Handles.file {written written' : Written} {p : Pending} (hwf : fs.WellFormed)
    (hp : p.Stands fs input root) (h : b.Handles written p fs (.ok written') fs') :
    (b.isDocument input p.names = false ∧ written' = written ∧ fs' = fs) ∨
      b.isDocument input p.names = true ∧ written' = (b.pageOf p.names, input.below p.names) :: written ∧
        written.source? (b.pageOf p.names) = none ∧ ∃ fs₁ kind text l, Page b input p.names fs fs₁ fs' kind text l := by
  cases h with
  | passed hno =>
    refine .inl ⟨?_, rfl, rfl⟩
    rw [hp.path] at hno
    rw [Batch.isDocument, ← Bool.not_eq_true', Bool.not_and, Bool.not_not, Option.not_isSome]
    exact hno
  | made hskip hkind hnew hmakes =>
    refine .inr ⟨hp.isDocument hskip (by rw [hkind, Option.isSome_some]), by rw [hp.path]; rfl, hnew, ?_⟩
    rw [hp.path] at hkind hmakes
    cases hmakes with
    | page hprepare htext hwrite =>
      obtain ⟨hwf₁, hgrows⟩ := @prepare_grows (fun _ => False) _ hwf (b.target p.relative)
      rw [hprepare] at hwf₁ hgrows
      obtain ⟨l, hwrote⟩ := wrote_of_write hwf₁ hwrite
      exact ⟨_, _, _, l, hkind, hprepare, hgrows, htext, hwrote, hwf₁⟩

theorem Batch.Handles.isDocument {written : Written} {p : Pending} {e : Error} (hp : p.Stands fs input root)
    (h : b.Handles written p fs (.error e) fs') : b.isDocument input p.names = true := by
  cases h with
  | taken hskip hkind hfirst => exact hp.isDocument hskip hkind
  | failed hskip hkind hnew hmakes => exact hp.isDocument hskip (by rw [hkind, Option.isSome_some])

theorem Page.step (h : Begins b fs₀ input root) (hgrows : Grows (b.pages fs₀ input root) fs₀ fs)
    {names : List Name} (hmem : names ∈ b.documents fs₀ input root) {fs₁ : FileSystem} {kind : DocumentKind}
    {text : String} {l : Location} (hpage : Page b input names fs fs₁ fs' kind text l) :
    Grows (b.pages fs₀ input root) fs₀ fs' ∧
      (∃ page r, HasPage b.options.outputFormat names page ∧ fs'.resolve true b.options.outputDir = .ok r ∧
        l = r ++ page) ∧
      ∀ other, b.isDocument input other = true → root ++ other ≠ l := by
  obtain ⟨hne, hnames⟩ := h.isName_document hmem
  have hgrows₁ : Grows (b.pages fs₀ input root) fs₀ fs₁ := hgrows.trans (hpage.grows.mono fun _ hfalse => hfalse.elim)
  have hleads : b.pages fs₀ input root l := ⟨names, hmem, leads_of_grows hpage.wellFormed hgrows₁ hpage.wrote.leads⟩
  have hgrows' : Grows (b.pages fs₀ input root) fs₀ fs' :=
    hgrows₁.trans (hpage.wrote.grows.mono fun k hk => hk.symm ▸ hleads)
  obtain ⟨page, r, hhas, hresolve, heq⟩ := location_of_page hpage.wellFormed hgrows₁ h.links hne hnames hpage.ofKind
    (resolve_of_locate hpage.wrote.leads) hpage.wrote.free
  refine ⟨hgrows', ⟨page, r, hhas, resolve_of_grows hpage.wrote.grows hresolve, heq⟩, ?_⟩
  intro other hother hsame
  have hother_ne : other ≠ [] := by
    rintro rfl
    have hdir := (hgrows₁.change root).directory h.directory
    rw [List.append_nil] at hsame
    rw [hsame] at hdir
    obtain hfree | ⟨bytes, hfree⟩ := hpage.wrote.free <;> rw [hdir] at hfree <;> cases hfree
  have hother_names : ∀ name ∈ other, isName name = true := fun name hname =>
    hpage.wrote.wellFormed.isName_of_mem hpage.wrote.holds name (hsame ▸ List.mem_append_right root hname)
  rw [not_isDocument_of_place h.distinct hhas hnames hother_ne hother_names (hsame.trans heq)] at hother
  cases hother

theorem Page.step_grows {names : List Name} {fs₁ : FileSystem} {kind : DocumentKind} {text : String} {l : Location}
    (hpage : Page b input names fs fs₁ fs' kind text l) : Grows (· = l) fs fs' :=
  (hpage.grows.mono fun _ hfalse => hfalse.elim).trans hpage.wrote.grows

/-- What is made for a page besides it: directories on the way to it. -/
theorem Page.directories (hwf : fs.WellFormed) {names : List Name} {fs₁ : FileSystem} {kind : DocumentKind}
    {text : String} {l k : Location} (hpage : Page b input names fs fs₁ fs' kind text l) (hnone : fs.get? k = none)
    (hdir : fs'.get? k = some .directory) : ∃ q, q.IsAncestor (b.pageOf names) ∧ fs'.locate true q = .ok k := by
  have hk : k ≠ l := by
    rintro rfl
    rw [hpage.wrote.holds] at hdir
    cases hdir
  rw [hpage.wrote.frame k hk] at hdir
  have hfs₁ : (fs.prepare (b.pageOf names)).1 = fs₁ := by rw [hpage.prepared]
  obtain ⟨q, hq, hlocate⟩ := prepare_ancestor hwf hnone (hfs₁.symm ▸ hdir)
  rw [hfs₁] at hlocate
  exact ⟨q, hq, locate_of_grows hpage.wrote.grows hlocate⟩

end Folio
