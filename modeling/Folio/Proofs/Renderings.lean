import Folio.Proofs.Document
import Folio.Proofs.Notices
import Folio.Proofs.FileSystem.Parents

/-!
# Folio.Proofs.Renderings

What is rendered while work is done.

* `World.strategies`, `World.calls`: the renderings that have been reported, and the calls of the engine.
* `Method`: how the text of a page is made from its content, and which calls of the engine this takes.
* `Rendering`: the making of a page, from where its content is there. `Method.Renders`: work on files that consists of
  such; `Method.Rendered` adds what is reported.
* `Method.renderings`: the renderings of one document. It is rendered once if its content can be made.
* `page_rendered`, `processDocument_rendered`: the making of one page consists of these.
* `render_eq_of_plain`: without a template for the engine, neither the engine nor the layout roots count.
-/

namespace Folio

open FileSystem

/-! ### Reports -/

/-- How a page is made, where a notice says so. -/
def Notice.strategy? : Notice → Option Strategy
  | .chosen strategy => some strategy
  | _ => none

/-- Notices on other things than renderings. -/
def Notice.IsAside (n : Notice) : Prop :=
  n.strategy? = none ∧ n.call? = none

namespace World

/-- The strategies of all renderings that have been reported. -/
def strategies (w : World) : List Strategy :=
  w.notices.filterMap Notice.strategy?

/-- The calls of the engine that have been reported. -/
def calls (w : World) : List RenderCall :=
  w.notices.filterMap Notice.call?

/-- These renderings and calls have been reported in between. -/
structure Adds (strategies : List Strategy) (calls : List RenderCall) (w w' : World) : Prop where
  strategies : w'.strategies = w.strategies ++ strategies
  calls : w'.calls = w.calls ++ calls

variable {s s' : List Strategy} {c c' : List RenderCall} {w w₁ w' : World}

theorem Adds.trans (h : Adds s c w w₁) (h' : Adds s' c' w₁ w') : Adds (s ++ s') (c ++ c') w w' where
  strategies := by rw [h'.strategies, h.strategies, List.append_assoc]
  calls := by rw [h'.calls, h.calls, List.append_assoc]

theorem adds_of_notices {more : List Notice} (h : w'.notices = w.notices ++ more) :
    Adds (more.filterMap Notice.strategy?) (more.filterMap Notice.call?) w w' where
  strategies := by rw [World.strategies, h, List.filterMap_append, World.strategies]
  calls := by rw [World.calls, h, List.filterMap_append, World.calls]

theorem adds_nil_of_extends (h : Notice.Extends Notice.IsAside w.notices w'.notices) : Adds [] [] w w' := by
  obtain ⟨more, hmore, haside⟩ := h
  have hadds := adds_of_notices hmore
  rw [List.filterMap_eq_nil_iff.2 fun n hn => (haside n hn).1,
    List.filterMap_eq_nil_iff.2 fun n hn => (haside n hn).2] at hadds
  exact hadds

end World

/-! ### Methods -/

/-- How the pages of a run are made: what goes into their contents, and how their texts are made from these. -/
structure Method where
  settings : Settings
  strategy : Strategy
  text : FileSystem → Content → Except Error String
  calls : Content → List RenderCall

/-- The calls of the engine for a page. -/
def engineCalls (template : Option Path) (layoutRoots : List Path) (content : Content) : List RenderCall :=
  match Strategy.choose template with
  | .engine template =>
    match template.fileName?.bind Text.decode? with
    | none => []
    | some name => [renderCall template name layoutRoots content]
  | _ => []

/-- The making of a page from where its content is there, with the files as they are then. -/
structure Rendering where
  kind : DocumentKind
  source : Path
  target : Path
  content : Content
  before : FileSystem

/-- The error of work that fails. -/
def failure? {α : Type} : Except Error α → Option Error
  | .ok _ => none
  | .error e => some e

theorem failure?_map {α β : Type} (f : α → β) (result : Except Error α) :
    failure? (result.map f) = failure? result := by
  cases result <;> rfl

namespace Method

def ofChoices (renderer : Renderer) (choices : Choices) : Method where
  settings := choices.settings
  strategy := Strategy.choose choices.template
  text fs content := (render renderer choices.template choices.layoutRoots content).result fs
  calls := engineCalls choices.template choices.layoutRoots

/-- The content is that of the document. -/
def Produces (m : Method) (r : Rendering) : Prop :=
  (Content.produce r.kind m.settings r.source).result r.before = .ok r.content

/-- The text is made, and written as it is. -/
def Writes (m : Method) (r : Rendering) (after : FileSystem) : Prop :=
  ∃ text, m.text r.before r.content = .ok text ∧ r.before.write r.target (Text.encode text) = .ok after

/-- The text cannot be made, or not be written. -/
def Fails (m : Method) (r : Rendering) (e : Error) : Prop :=
  m.text r.before r.content = .error e ∨
    ∃ text cause, m.text r.before r.content = .ok text ∧
      r.before.write r.target (Text.encode text) = .error cause ∧ e = .io cause

/-- Directories for pages may have been made, and nothing else. -/
inductive Prepared : FileSystem → FileSystem → Prop where
  | refl {fs : FileSystem} : Prepared fs fs
  | step {fs fs' : FileSystem} (page : Path) (hmore : Prepared (fs.prepare page).1 fs') : Prepared fs fs'

/-- Pages are rendered one after the other, up to the first failure. -/
inductive Renders (m : Method) : FileSystem → List Rendering → Option Error → FileSystem → Prop where
  | done {fs fs' : FileSystem} {failure : Option Error} (hprepared : Prepared fs fs') : Renders m fs [] failure fs'
  | failed {fs : FileSystem} {r : Rendering} {e : Error} (hprepared : Prepared fs r.before)
      (hproduces : m.Produces r) (hfails : m.Fails r e) : Renders m fs [r] (some e) r.before
  | written {fs fs₁ fs' : FileSystem} {r : Rendering} {rs : List Rendering} {failure : Option Error}
      (hprepared : Prepared fs r.before) (hproduces : m.Produces r) (hwrites : m.Writes r fs₁)
      (hmore : Renders m fs₁ rs failure fs') : Renders m fs (r :: rs) failure fs'

/-- Work that renders pages, and reports each rendering with its calls of the engine. -/
structure Rendered {α : Type} (m : Method) (w : World) (rs : List Rendering) (run : Except Error α × World) :
    Prop where
  files : m.Renders w.fs rs (failure? run.1) run.2.fs
  reported : World.Adds (rs.map fun _ => m.strategy) (rs.flatMap fun r => m.calls r.content) w run.2

variable {m : Method} {α β : Type} {w : World}

theorem Prepared.trans {fs fs₁ fs' : FileSystem} (h : Prepared fs fs₁) (hmore : Prepared fs₁ fs') :
    Prepared fs fs' := by
  induction h with
  | refl => exact hmore
  | step page _ ih => exact .step page (ih hmore)

theorem Prepared.grows {fs fs' : FileSystem} (h : Prepared fs fs') (hwf : fs.WellFormed) :
    fs'.WellFormed ∧ Grows (fun _ => False) fs fs' := by
  induction h with
  | refl => exact ⟨hwf, .refl _ _⟩
  | step page _ ih =>
    obtain ⟨hwf', hmore⟩ := ih (@prepare_grows (fun _ => False) _ hwf page).1
    exact ⟨hwf', (prepare_grows hwf page).2.trans hmore⟩

/-- While directories are made, files are as they were. -/
theorem Prepared.read {fs fs' : FileSystem} (h : Prepared fs fs') (hwf : fs.WellFormed) {p : Path} {bytes : List UInt8}
    (hread : fs.read p = .ok bytes) : fs'.read p = .ok bytes := by
  obtain ⟨l, hl, hfile⟩ := locate_of_read hread
  exact read_of_grows (h.grows hwf).2 hl id hfile

theorem Renders.prepared {fs fs' : FileSystem} {r : Rendering} {rs : List Rendering} {failure : Option Error}
    (h : m.Renders fs (r :: rs) failure fs') : Prepared fs r.before := by
  cases h with
  | failed hprepared => exact hprepared
  | written hprepared => exact hprepared

theorem Renders.of_prepared {fs fs₁ fs' : FileSystem} {rs : List Rendering} {failure : Option Error}
    (hprepared : Prepared fs fs₁) (h : m.Renders fs₁ rs failure fs') : m.Renders fs rs failure fs' := by
  cases h with
  | done hmore => exact .done (hprepared.trans hmore)
  | failed hmore hproduces hfails => exact .failed (hprepared.trans hmore) hproduces hfails
  | written hmore hproduces hwrites hrest => exact .written (hprepared.trans hmore) hproduces hwrites hrest

theorem Renders.append {fs fs₁ fs' : FileSystem} {rs rs' : List Rendering} {failure : Option Error}
    (h : m.Renders fs rs none fs₁) (hmore : m.Renders fs₁ rs' failure fs') : m.Renders fs (rs ++ rs') failure fs' := by
  generalize hnone : (none : Option Error) = first at h
  induction h with
  | done hprepared => exact hmore.of_prepared hprepared
  | failed => cases hnone
  | written hprepared hproduces hwrites _ ih => exact .written hprepared hproduces hwrites (ih hmore hnone)

theorem rendered_of_observes {a : Action α} (ha : a.Observes) (haside : a.Reports Notice.IsAside) (w : World) :
    m.Rendered w [] (a w) where
  files := by
    rw [(ha w).1]
    exact .done .refl
  reported := World.adds_nil_of_extends (haside w)

theorem Rendered.of_prepared {fs : FileSystem} {rs : List Rendering} {run : Except Error α × World}
    (hprepared : Prepared w.fs fs) (h : m.Rendered { w with fs } rs run) : m.Rendered w rs run :=
  ⟨h.files.of_prepared hprepared, h.reported.strategies, h.reported.calls⟩

theorem Rendered.append {x : α} {w₁ : World} {rs rs' : List Rendering} {run : Except Error β × World}
    (h : m.Rendered w rs (.ok x, w₁)) (hmore : m.Rendered w₁ rs' run) : m.Rendered w (rs ++ rs') run where
  files := h.files.append hmore.files
  reported := by
    rw [List.map_append, List.flatMap_append]
    exact h.reported.trans hmore.reported

/-- Where work is followed by such that only looks at the files, nothing more is rendered. -/
theorem Rendered.bind_observes {a : Action α} {f : α → Action β} {rs : List Rendering} (h : m.Rendered w rs (a w))
    (hf : ∀ x, (f x).Observes ∧ (f x).Reports Notice.IsAside) : m.Rendered w rs ((a >>= f) w) := by
  rw [Action.bind_eq]
  cases hrun : a w with
  | mk result w₁ =>
    rw [hrun] at h
    cases result with
    | error e => exact ⟨h.files, h.reported⟩
    | ok x =>
      have hmore := h.append (rendered_of_observes (hf x).1 (hf x).2 w₁)
      rwa [List.append_nil] at hmore

/-- The renderings of one document: it is rendered once if its content can be made. -/
def renderings (m : Method) (kind : DocumentKind) (source target : Path) (fs : FileSystem) : List Rendering :=
  match (Content.produce kind m.settings source).result fs with
  | .ok content => [⟨kind, source, target, content, fs⟩]
  | .error _ => []

variable {kind : DocumentKind} {source : Path} {fs : FileSystem}

theorem renderings_of_ok {content : Content} (h : (Content.produce kind m.settings source).result fs = .ok content)
    (target : Path) : m.renderings kind source target fs = [⟨kind, source, target, content, fs⟩] := by
  rw [renderings, h]

theorem renderings_of_error {e : Error} (h : (Content.produce kind m.settings source).result fs = .error e)
    (target : Path) : m.renderings kind source target fs = [] := by
  rw [renderings, h]

theorem renderings_cases (m : Method) (kind : DocumentKind) (source target : Path) (fs : FileSystem) :
    m.renderings kind source target fs = [] ∨
      ∃ content, m.renderings kind source target fs = [⟨kind, source, target, content, fs⟩] := by
  cases hcontent : (Content.produce kind m.settings source).result fs with
  | ok content => exact .inr ⟨content, renderings_of_ok hcontent target⟩
  | error e => exact .inl (renderings_of_error hcontent target)

end Method

/-! ### One page -/

theorem render_notices (renderer : Renderer) (template : Option Path) (layoutRoots : List Path) (content : Content)
    (w : World) :
    (render renderer template layoutRoots content w).2.notices =
      w.notices ++ .chosen (Strategy.choose template) :: (engineCalls template layoutRoots content).map .rendering := by
  rw [render, Action.bind_eq, Action.report, engineCalls]
  cases Strategy.choose template with
  | engine template =>
    dsimp only
    cases template.fileName?.bind Text.decode? with
    | none => rfl
    | some name => exact List.append_assoc ..
  | plain template =>
    dsimp only
    rw [Action.bind_eq, Action.readText]
    dsimp only
    cases w.fs.readText template <;> rfl
  | bare => rfl

/-- What is reported of a rendering: how it is done, and the calls of the engine. -/
theorem render_adds (renderer : Renderer) (template : Option Path) (layoutRoots : List Path) (content : Content)
    (w : World) :
    World.Adds [Strategy.choose template] (engineCalls template layoutRoots content) w
      (render renderer template layoutRoots content w).2 := by
  have hstrategies : ∀ calls : List RenderCall, (calls.map Notice.rendering).filterMap Notice.strategy? = [] := by
    intro calls
    rw [List.filterMap_map, List.filterMap_eq_nil_iff]
    exact fun _ _ => rfl
  have hcalls : ∀ calls : List RenderCall, (calls.map Notice.rendering).filterMap Notice.call? = calls := by
    intro calls
    rw [List.filterMap_map]
    exact List.filterMap_some
  have hadds := World.adds_of_notices (render_notices renderer template layoutRoots content w)
  simp only [List.filterMap_cons, Notice.strategy?, Notice.call?, hstrategies, hcalls] at hadds
  exact hadds

section Page

variable (renderer : Renderer) (choices : Choices) {w : World}

/-- A page whose content is there is rendered once. -/
theorem renderToFile_rendered {r : Rendering} (hproduces : (Method.ofChoices renderer choices).Produces r)
    (hbefore : r.before = w.fs) :
    (Method.ofChoices renderer choices).Rendered w [r]
      (renderToFile renderer choices.template choices.layoutRoots r.content r.target w) := by
  obtain ⟨hfs, hresult⟩ := observes_render renderer choices.template choices.layoutRoots r.content w
  have hadds := render_adds renderer choices.template choices.layoutRoots r.content w
  have hprepared : Method.Prepared w.fs r.before := hbefore ▸ .refl
  rw [renderToFile]
  cases hrender : render renderer choices.template choices.layoutRoots r.content w with
  | mk result w₁ =>
    rw [hrender] at hfs hresult hadds
    dsimp only at hfs hresult hadds
    rw [← hbefore] at hfs hresult
    cases result with
    | error e =>
      rw [Action.bind_eq, hrender]
      refine ⟨?_, ?_⟩
      · rw [hfs]
        exact .failed hprepared hproduces (.inl hresult.symm)
      · rw [List.flatMap_singleton]
        exact hadds
    | ok text =>
      have hwriting : (Notice.writing r.target).IsAside := ⟨rfl, rfl⟩
      have haside := World.adds_nil_of_extends (reports_writeOutput text hwriting w₁)
      rw [Action.bind_of_ok _ hrender]
      refine ⟨?_, ?_⟩
      · obtain ⟨cause, w', hwrite, hkept, hout⟩ | ⟨w', hwrite, hout⟩ := writeOutput_cases r.target text w₁
        · rw [hfs] at hwrite hkept
          rw [hout, hkept]
          exact .failed hprepared hproduces (.inr ⟨text, cause, hresult.symm, hwrite, rfl⟩)
        · rw [hfs] at hwrite
          rw [hout]
          exact .written hprepared hproduces ⟨text, hresult.symm, hwrite⟩ (.done .refl)
      · have hboth := hadds.trans haside
        rw [List.append_nil, List.append_nil] at hboth
        rw [List.flatMap_singleton]
        exact hboth

/-- The making of a page consists of the renderings of its document. It succeeds only if there is one. -/
theorem page_rendered {α : Type} (kind : DocumentKind) (source target : Path) {next : Action α}
    (hnext : next.Observes) (haside : next.Reports Notice.IsAside) (w : World) :
    let rs := (Method.ofChoices renderer choices).renderings kind source target w.fs
    let page : Action α := do
      let content ← Content.produce kind choices.settings source
      renderToFile renderer choices.template choices.layoutRoots content target
      next
    (Method.ofChoices renderer choices).Rendered w rs (page w) ∧
      ∀ x, (page w).1 = .ok x → ∃ content, rs = [⟨kind, source, target, content, w.fs⟩] := by
  have hproduce := observes_produce kind choices.settings source
  have hfirst := Method.rendered_of_observes (m := Method.ofChoices renderer choices) hproduce
    (reports_produce kind choices.settings ⟨rfl, rfl⟩) w
  obtain ⟨hfs, hresult⟩ := hproduce w
  dsimp only
  cases hrun : Content.produce kind choices.settings source w with
  | mk result w₁ =>
    rw [hrun] at hfirst hfs hresult
    dsimp only at hfs hresult
    cases result with
    | error e =>
      have hnone := (Method.ofChoices renderer choices).renderings_of_error hresult.symm target
      rw [hnone, Action.bind_eq, hrun]
      refine ⟨⟨hfirst.files, hfirst.reported⟩, fun x hx => ?_⟩
      cases hx
    | ok content =>
      have hone := (Method.ofChoices renderer choices).renderings_of_ok hresult.symm target
      rw [hone, Action.bind_of_ok _ hrun]
      refine ⟨?_, fun _ _ => ⟨content, rfl⟩⟩
      have hrest := (@renderToFile_rendered renderer choices w₁ ⟨kind, source, target, content, w.fs⟩ hresult.symm
        hfs.symm).bind_observes fun _ => ⟨hnext, haside⟩
      exact hfirst.append hrest

/-- A document is rendered at most once, and exactly once if its page is written. -/
theorem processDocument_rendered (kind : DocumentKind) (input : Path) (options : DocumentOptions) (w : World) :
    ∃ rs, (Method.ofChoices renderer options.toChoices).Rendered w rs (processDocument renderer kind input options w) ∧
      (rs = [] ∨ ∃ content, rs = [⟨kind, input, options.outputFor input, content, w.fs⟩]) ∧
      ∀ page, (processDocument renderer kind input options w).1 = .ok page →
        page = options.outputFor input ∧ rs ≠ [] := by
  cases hsame : w.fs.sameFile (options.outputFor input) input with
  | true =>
    rw [processDocument_same hsame]
    refine ⟨[], Method.rendered_of_observes (Action.observes_fail _) (Action.reports_fail _) w, .inl rfl,
      fun page hpage => ?_⟩
    cases hpage
  | false =>
    obtain ⟨hrendered, hone⟩ := page_rendered renderer options.toChoices kind input (options.outputFor input)
      (Action.observes_ofExcept (.ok (options.outputFor input))) (Action.reports_ofExcept _) w
    have hplace : ∀ page, (processDocument renderer kind input options w).1 = .ok page →
        page = options.outputFor input := by
      intro page hpage
      obtain ⟨e, w', -, -, hrun⟩ | ⟨text, w', -, -, hrun⟩ := processDocument_apart hsame <;> rw [hrun] at hpage
      · cases hpage
      · exact (Except.ok.inj hpage).symm
    rw [processDocument, Action.ask_bind, hsame, if_neg Bool.false_ne_true] at hplace ⊢
    refine ⟨_, hrendered, Method.renderings_cases _ kind input _ w.fs, fun page hpage => ⟨hplace page hpage, ?_⟩⟩
    obtain ⟨content, hsingle⟩ := hone page hpage
    rw [hsingle]
    exact List.cons_ne_nil _ _

end Page

/-! ### Templates for the engine -/

/-- The engine is for templates whose names are texts that end in `.j2`, in any case. -/
theorem choose_eq_engine {template : Option Path} {path : Path} :
    Strategy.choose template = .engine path ↔ template = some path ∧
      ∃ name, path.fileName?.bind Text.decode? = some name ∧ ".j2".toList <:+ (Text.asciiLower name).toList := by
  cases template with
  | none => simp [Strategy.choose]
  | some template =>
    rw [Strategy.choose, isEngineTemplate, engineSuffix]
    cases hname : template.fileName?.bind Text.decode? with
    | none =>
      constructor
      · intro h
        cases h
      · rintro ⟨htemplate, name, hdecode, -⟩
        cases htemplate
        rw [hname] at hdecode
        cases hdecode
    | some name =>
      dsimp only
      rw [ite_eq_iff, List.isSuffixOf_iff_suffix]
      constructor
      · rintro (⟨hsuffix, h⟩ | ⟨-, h⟩)
        · cases h
          exact ⟨rfl, name, hname, hsuffix⟩
        · cases h
      · rintro ⟨htemplate, name', hdecode, hsuffix⟩
        cases htemplate
        cases hname.symm.trans hdecode
        exact .inl ⟨hsuffix, rfl⟩

/-- With a template for the engine, a text is what one call of it returns. -/
theorem ofChoices_of_engine (renderer : Renderer) {choices : Choices} {template : Path} {name : String}
    (hengine : Strategy.choose choices.template = .engine template)
    (hname : template.fileName?.bind Text.decode? = some name) :
    Method.ofChoices renderer choices =
      { settings := choices.settings
        strategy := .engine template
        text := fun fs content => renderer fs (renderCall template name choices.layoutRoots content)
        calls := fun content => [renderCall template name choices.layoutRoots content] } := by
  rw [Method.ofChoices, Method.mk.injEq]
  refine ⟨rfl, hengine, ?_, ?_⟩
  · funext fs content
    rw [result_render, hengine]
    dsimp only
    rw [hname]
  · funext content
    rw [engineCalls, hengine]
    dsimp only
    rw [hname]

/-- How pages are made without the engine: by a template, which is read for each page, or without one. -/
def Method.plain (settings : Settings) (template : Option Path) : Method where
  settings
  strategy := template.elim .bare .plain
  text fs content :=
    match template with
    | none => plainPage none content
    | some path =>
      match fs.readText path with
      | .error e => .error (.io e)
      | .ok text => plainPage (some text) content
  calls _ := []

theorem choose_of_plain {template : Option Path} (h : ∀ path, Strategy.choose template ≠ .engine path) :
    Strategy.choose template = template.elim .bare .plain := by
  cases template with
  | none => rfl
  | some path =>
    have hnot : ¬ isEngineTemplate path = true := fun hengine => h path (by rw [Strategy.choose, if_pos hengine])
    rw [Strategy.choose, if_neg hnot, Option.elim_some]

/-- Without a template for the engine, a text is made by the template itself, or without one. -/
theorem ofChoices_of_plain (renderer : Renderer) {choices : Choices}
    (h : ∀ path, Strategy.choose choices.template ≠ .engine path) :
    Method.ofChoices renderer choices = Method.plain choices.settings choices.template := by
  have hchoose := choose_of_plain h
  rw [Method.ofChoices, Method.plain, Method.mk.injEq]
  refine ⟨rfl, hchoose, ?_, ?_⟩
  · funext fs content
    rw [result_render, hchoose]
    cases choices.template <;> rfl
  · funext content
    rw [engineCalls, hchoose]
    cases choices.template <;> rfl

/-- Without a template for the engine, neither the engine nor the layout roots count. -/
theorem render_eq_of_plain {template : Option Path} (h : ∀ path, Strategy.choose template ≠ .engine path)
    (renderer renderer' : Renderer) (layoutRoots layoutRoots' : List Path) (content : Content) :
    render renderer template layoutRoots content = render renderer' template layoutRoots' content := by
  unfold render
  cases hstrategy : Strategy.choose template with
  | engine path => exact absurd hstrategy (h path)
  | plain path => rfl
  | bare => rfl

theorem processDocument_eq_of_plain {options : DocumentOptions}
    (h : ∀ path, Strategy.choose options.template ≠ .engine path) (renderer renderer' : Renderer)
    (layoutRoots : List Path) (kind : DocumentKind) (input : Path) :
    processDocument renderer kind input options =
      processDocument renderer' kind input { options with layoutRoots } := by
  have hrender := render_eq_of_plain h renderer renderer' options.layoutRoots layoutRoots
  unfold processDocument renderToFile
  simp only [hrender]
  rfl

theorem engineCalls_of_plain {template : Option Path} (h : ∀ path, Strategy.choose template ≠ .engine path)
    (layoutRoots : List Path) (content : Content) : engineCalls template layoutRoots content = [] := by
  rw [engineCalls]
  cases hstrategy : Strategy.choose template with
  | engine path => exact absurd hstrategy (h path)
  | plain path => rfl
  | bare => rfl

end Folio
