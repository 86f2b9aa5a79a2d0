import Folio.Batch
import Folio.Template.Engine
import Folio.Proofs.Precedence
import Folio.Proofs.Renderings

/-!
# Folio.Proofs.Errors

The errors that the making of pages can end with.

* `Action.Ensures`: work whose results and errors are of one kind each. It is closed under `bind`
  (`Action.Ensures.bind`).
* `Content.Found`: content that holds a document and tooltips. All content that is made for a document does
  (`ensures_produce`).
* `ensures_render`, `ensures_processDocument`, `ensures_processDirectory`: no page fails for want of a parameter, nor
  by its configuration.
-/

namespace Folio
namespace Action

/-- Every result is as `Q` says, and every error as `E` says. -/
def Ensures {α : Type} (a : Action α) (Q : α → Prop) (E : Error → Prop) : Prop :=
  ∀ w, (∀ x, (a w).1 = .ok x → Q x) ∧ ∀ e, (a w).1 = .error e → E e

variable {α β : Type} {Q : α → Prop} {R : β → Prop} {E : Error → Prop}

theorem ensures_ofExcept {r : Except Error α} (hok : ∀ x, r = .ok x → Q x) (herror : ∀ e, r = .error e → E e) :
    (ofExcept r).Ensures Q E :=
  fun _ => ⟨hok, herror⟩

theorem ensures_pure {x : α} (h : Q x) : (pure x : Action α).Ensures Q E :=
  ensures_ofExcept (r := .ok x) (by rintro _ ⟨⟩; exact h) (by rintro _ ⟨⟩)

theorem ensures_fail {e : Error} (h : E e) : (fail e : Action α).Ensures Q E :=
  ensures_ofExcept (r := .error e) (by rintro _ ⟨⟩) (by rintro _ ⟨⟩; exact h)

theorem Ensures.bind {a : Action α} {f : α → Action β} (ha : a.Ensures Q E) (hf : ∀ x, Q x → (f x).Ensures R E) :
    (a >>= f).Ensures R E := by
  intro w
  obtain ⟨hok, herror⟩ := ha w
  rw [bind_eq]
  cases hrun : a w with
  | mk r w₁ =>
    rw [hrun] at hok herror
    cases r with
    | ok x => exact hf x (hok x rfl) w₁
    | error e => exact ⟨by rintro _ ⟨⟩, by rintro _ ⟨⟩; exact herror e rfl⟩

theorem ensures_report (n : Notice) : (report n).Ensures (fun _ => True) E :=
  fun _ => ⟨fun _ _ => trivial, by rintro _ ⟨⟩⟩

theorem ensures_ask (question : FileSystem → α) : (ask question).Ensures (fun _ => True) E :=
  fun _ => ⟨fun _ _ => trivial, by rintro _ ⟨⟩⟩

section Files

variable (hio : ∀ cause, E (.io cause))

include hio

theorem ensures_readText (p : Path) : (readText p).Ensures (fun _ => True) E := by
  intro w
  rw [readText]
  split
  · exact ⟨fun _ _ => trivial, by rintro _ ⟨⟩⟩
  · exact ⟨fun _ _ => trivial, by rintro _ ⟨⟩; exact hio _⟩

theorem ensures_writeText (p : Path) (text : String) : (writeText p text).Ensures (fun _ => True) E := by
  intro w
  rw [writeText]
  split
  · exact ⟨fun _ _ => trivial, by rintro _ ⟨⟩⟩
  · exact ⟨fun _ _ => trivial, by rintro _ ⟨⟩; exact hio _⟩

theorem ensures_makeDirectories (p : Path) : (makeDirectories p).Ensures (fun _ => True) E := by
  intro w
  rw [makeDirectories]
  split
  · exact ⟨fun _ _ => trivial, by rintro _ ⟨⟩⟩
  · exact ⟨fun _ _ => trivial, by rintro _ ⟨⟩; exact hio _⟩

end Files
end Action

/-- An error of other kinds than those of parameters and of configurations. -/
def Error.IsOther (e : Error) : Prop :=
  (∀ name, e ≠ .missingParameter name) ∧ ∀ text, e ≠ .config text

namespace Error

theorem isOther_io (cause : IoError) : (io cause).IsOther :=
  ⟨nofun, nofun⟩

theorem isOther_template (fault : TemplateFault) : (template fault).IsOther :=
  ⟨nofun, nofun⟩

theorem isOther_ignore (text : String) : (ignore text).IsOther :=
  ⟨nofun, nofun⟩

theorem isOther_document (path reason : String) : (document path reason).IsOther :=
  ⟨nofun, nofun⟩

end Error

/-! ### The content of a page -/

namespace Content

/-- The parameters that a page is made of without a template are there. -/
def Found (content : Content) (document tooltips : String) : Prop :=
  content.parameters.get? content.tag = some document ∧ content.parameters.get? tooltipsName = some tooltips

theorem barePage_of_found {content : Content} {document tooltips : String} (h : content.Found document tooltips) :
    barePage content = .ok (document ++ "\n\n" ++ tooltips) := by
  simp only [barePage, ParameterSet.require, h.1, h.2]

/-- A replacement counts, or else what is made of the document. -/
theorem found_ofText {kind : DocumentKind} {settings : Settings} {source : Path} {text : String} {content : Content}
    (h : ofText kind settings source text = .ok content) :
    content.tag = documentTag ∧ content.Found
      ((settings.replacements.get? documentTag).getD (fragment settings.format (documentEvents kind source text)))
      ((settings.replacements.get? tooltipsName).getD "") := by
  rw [ofText] at h
  cases htitle : title kind source (documentEvents kind source text) with
  | error e =>
    rw [htitle] at h
    cases h
  | ok name =>
    rw [htitle] at h
    cases h
    have hnodup := nodup_generated settings source name (fragment settings.format (documentEvents kind source text)) text
    refine ⟨rfl, ?_, ?_⟩ <;>
      rw [ParameterSet.get?_insertAll_pairs, ParameterSet.get?_ofPairs, lookup_reverse hnodup]
    · cases settings.replacements.get? documentTag <;> rfl
    · cases settings.replacements.get? tooltipsName <;> rfl

theorem isOther_of_title {kind : DocumentKind} {source : Path} {es : List Markdown.Event} {e : Error}
    (h : title kind source es = .error e) : e.IsOther := by
  have hstem : ∀ e, stem source = .error e → e.IsOther := by
    intro e he
    rw [stem] at he
    split at he
    · cases he
    · cases he
      exact Error.isOther_document ..
  rw [title.eq_def] at h
  split at h
  · split at h
    · cases h
    · exact hstem e h
  · exact hstem e h

theorem isOther_of_ofText {kind : DocumentKind} {settings : Settings} {source : Path} {text : String} {e : Error}
    (h : ofText kind settings source text = .error e) : e.IsOther := by
  rw [ofText] at h
  cases htitle : title kind source (documentEvents kind source text) with
  | error e' =>
    rw [htitle] at h
    cases h
    exact isOther_of_title htitle
  | ok name =>
    rw [htitle] at h
    cases h

end Content

theorem ensures_produce (kind : DocumentKind) (settings : Settings) (source : Path) :
    (Content.produce kind settings source).Ensures (fun content => ∃ document tooltips, content.Found document tooltips)
      Error.IsOther := by
  refine (Action.ensures_readText Error.isOther_io source).bind fun text _ => ?_
  refine (Action.ensures_report _).bind fun _ _ => ?_
  exact Action.ensures_ofExcept (fun content h => ⟨_, _, (Content.found_ofText h).2⟩) fun e h =>
    Content.isOther_of_ofText h

/-! ### Renderings -/

/-- An engine without errors of parameters or configurations. -/
def Renderer.Sound (renderer : Renderer) : Prop :=
  ∀ fs call e, renderer fs call = .error e → e.IsOther

theorem Template.sound_engine : Renderer.Sound Template.engine := by
  intro fs call e h
  rw [Template.engine] at h
  split at h
  · cases h
    exact Error.isOther_template _
  · split at h
    · cases h
      exact Error.isOther_template _
    · cases h

theorem ensures_render {renderer : Renderer} (hsound : renderer.Sound) (template : Option Path)
    (layoutRoots : List Path) {content : Content} {document tooltips : String}
    (hfound : content.Found document tooltips) :
    (render renderer template layoutRoots content).Ensures (fun _ => True) Error.IsOther := by
  refine (Action.ensures_report _).bind fun _ _ => ?_
  cases hstrategy : Strategy.choose template with
  | engine path =>
    -- a template is for the engine only where its name is a text, so that the name is found again
    obtain ⟨-, name, hname, -⟩ := choose_eq_engine.1 hstrategy
    dsimp only
    rw [hname]
    refine (Action.ensures_report _).bind fun _ _ => ?_
    intro w
    exact ⟨fun _ _ => trivial, fun e he => hsound w.fs _ e he⟩
  | plain path =>
    refine (Action.ensures_readText Error.isOther_io path).bind fun text _ => ?_
    exact Action.ensures_ofExcept (fun _ _ => trivial) (by rintro _ ⟨⟩)
  | bare =>
    refine Action.ensures_ofExcept (fun _ _ => trivial) fun e he => ?_
    rw [plainPage, Content.barePage_of_found hfound] at he
    cases he

/-- Without a template, a page is the document with the tooltips below it. -/
theorem render_bare (renderer : Renderer) (layoutRoots : List Path) {content : Content} {document tooltips : String}
    (hfound : content.Found document tooltips) (w : World) :
    (render renderer none layoutRoots content w).1 = .ok (document ++ "\n\n" ++ tooltips) :=
  Content.barePage_of_found hfound

section Pages

variable {renderer : Renderer} (hsound : renderer.Sound)

include hsound

theorem ensures_renderToFile (template : Option Path) (layoutRoots : List Path) {content : Content}
    {document tooltips : String} (hfound : content.Found document tooltips) (output : Path) :
    (renderToFile renderer template layoutRoots content output).Ensures (fun _ => True) Error.IsOther := by
  refine (ensures_render hsound template layoutRoots hfound).bind fun text _ => ?_
  exact (Action.ensures_report _).bind fun _ _ => Action.ensures_writeText Error.isOther_io output text

theorem ensures_processDocument (kind : DocumentKind) (input : Path) (options : DocumentOptions) :
    (processDocument renderer kind input options).Ensures (fun _ => True) Error.IsOther := by
  refine (Action.ensures_ask _).bind fun same _ => ?_
  cases same with
  | true => exact Action.ensures_fail (Error.isOther_document ..)
  | false =>
    refine (ensures_produce kind options.settings input).bind fun content hcontent => ?_
    obtain ⟨document, tooltips, hfound⟩ := hcontent
    exact (ensures_renderToFile hsound _ _ hfound _).bind fun _ _ => Action.ensures_pure trivial

end Pages

namespace Batch

variable {b : Batch} (hsound : b.renderer.Sound)

include hsound

theorem ensures_writePage (kind : DocumentKind) (source target : Path) :
    (b.writePage kind source target).Ensures (fun _ => True) Error.IsOther := by
  have hpage : (do
      let content ← Content.produce kind b.options.settings source
      renderToFile b.renderer b.options.template b.options.layoutRoots content target
      Action.report (.generated target) : Action Unit).Ensures (fun _ => True) Error.IsOther := by
    refine (ensures_produce kind b.options.settings source).bind fun content hcontent => ?_
    obtain ⟨document, tooltips, hfound⟩ := hcontent
    exact (ensures_renderToFile hsound _ _ hfound _).bind fun _ _ => Action.ensures_report _
  have hroot : (pure () : Action Unit).Ensures (fun _ => True) Error.IsOther := Action.ensures_pure trivial
  rw [writePage]
  split
  · exact (Action.ensures_makeDirectories Error.isOther_io _).bind fun _ _ => hpage
  · exact hroot.bind fun _ _ => hpage

theorem ensures_processFile (written : Written) (file : Pending) :
    (b.processFile written file).Ensures (fun _ => True) Error.IsOther := by
  rw [processFile]
  split
  · exact (Action.ensures_report _).bind fun _ _ => Action.ensures_pure trivial
  · split
    · exact (Action.ensures_report _).bind fun _ _ => Action.ensures_pure trivial
    · dsimp only
      split
      · exact Action.ensures_fail (Error.isOther_document ..)
      · exact (ensures_writePage hsound _ _ _).bind fun _ _ => Action.ensures_pure trivial

theorem ensures_processAll (n : Nat) (written : Written) (pending : List Pending) :
    (b.processAll n written pending).Ensures (fun _ => True) Error.IsOther := by
  induction n generalizing written pending with
  | zero => exact Action.ensures_fail (Error.isOther_io _)
  | succ n ih =>
    refine (Action.ensures_ask _).bind fun next _ => ?_
    split
    · exact Action.ensures_fail (Error.isOther_io _)
    · exact Action.ensures_pure trivial
    · exact (ensures_processFile hsound written _).bind fun written _ => ih written _

end Batch

namespace IgnoreSet

theorem isOther_of_compileAll {patterns : List String} {e : Error} (h : compileAll patterns = .error e) :
    e.IsOther := by
  induction patterns with
  | nil => cases h
  | cons pattern patterns ih =>
    rw [compileAll] at h
    split at h
    · next hcompile =>
      rw [compile] at hcompile
      split at hcompile
      · cases hcompile
      · cases hcompile
        cases h
        exact Error.isOther_ignore _
    · split at h
      · next hrest =>
        cases h
        exact ih hrest
      · cases h

theorem ensures_load (path : Path) : (load path).Ensures (fun _ => True) Error.IsOther := by
  have hset : ∀ text, (Action.ofExcept (ofText text)).Ensures (fun _ => True) Error.IsOther := by
    intro text
    refine Action.ensures_ofExcept (fun _ _ => trivial) fun e he => ?_
    rw [ofText] at he
    split at he
    · next hcompile =>
      cases he
      exact isOther_of_compileAll hcompile
    · cases he
  refine (Action.ensures_ask _).bind fun text _ => ?_
  cases text with
  | ok text => exact hset (some text)
  | error e => exact (Action.ensures_report _).bind fun _ _ => hset none

end IgnoreSet

theorem ensures_processDirectory {renderer : Renderer} (hsound : renderer.Sound) (input : Path)
    (options : DirectoryOptions) :
    (processDirectory renderer input options).Ensures (fun _ => True) Error.IsOther := by
  refine (Action.ensures_ask _).bind fun found _ => ?_
  cases found with
  | false => exact Action.ensures_fail (Error.isOther_document ..)
  | true =>
    refine (IgnoreSet.ensures_load (input.join IgnoreSet.fileName)).bind fun ignored _ => ?_
    exact (Batch.ensures_processAll hsound maxFiles [] _).bind fun _ _ => Action.ensures_pure trivial

/-- No page fails for want of a parameter, nor by its configuration: the documents and tooltips are always there, and
the engine is chosen only for templates with a name. Without a template a page is the document with the tooltips below
it, where a replacement of either counts. -/
theorem processing_finds_parameters :
    (∀ kind input options w e, (processDocument Template.engine kind input options w).1 = .error e →
      (∀ name, e ≠ .missingParameter name) ∧ ∀ text, e ≠ .config text) ∧
    (∀ input options w e, (processDirectory Template.engine input options w).1 = .error e →
      (∀ name, e ≠ .missingParameter name) ∧ ∀ text, e ≠ .config text) ∧
    ∀ renderer kind settings source layoutRoots content w w',
      Content.produce kind settings source w = (.ok content, w') →
      ∃ text, w.fs.readText source = .ok text ∧
        let document := (settings.replacements.get? "document").getD
          (fragment settings.format (Content.documentEvents kind source text))
        let tooltips := (settings.replacements.get? "tooltips").getD ""
        content.parameters.get? "document" = some document ∧ content.parameters.get? "tooltips" = some tooltips ∧
          ∀ later, (render renderer none layoutRoots content later).1 = .ok (document ++ "\n\n" ++ tooltips) := by
  refine ⟨fun kind input options w => ?_, fun input options w => ?_, ?_⟩
  · exact (ensures_processDocument Template.sound_engine kind input options w).2
  · exact (ensures_processDirectory Template.sound_engine input options w).2
  · intro renderer kind settings source layoutRoots content w w' hproduce
    have hresult := (observes_produce kind settings source w).2
    rw [hproduce, result_produce] at hresult
    cases htext : w.fs.readText source with
    | error e =>
      rw [htext] at hresult
      cases hresult
    | ok text =>
      rw [htext] at hresult
      obtain ⟨htag, hfound⟩ := Content.found_ofText hresult.symm
      have hdocument := hfound.1
      rw [htag] at hdocument
      exact ⟨text, rfl, hdocument, hfound.2, render_bare renderer layoutRoots hfound⟩

namespace Layered

/-- A template without a name. -/
def nameless : DocumentOptions :=
  { Choices.none with template := some (Path.ofString ".."), output := none }

/-- All of a page that is made without a template. -/
def whole : Settings :=
  ⟨.latex, false, ParameterSet.ofPairs [("document", "D"), ("tooltips", "T")]⟩

/-- A template without a name is a plain one that cannot be read. -/
theorem processDocument_nameless :
    ∃ e, (processDocument Template.engine .script (Path.ofString "a.rs") nameless ⟨files, []⟩).1 = .error e := by
  have hsame : files.sameFile (nameless.outputFor (Path.ofString "a.rs")) (Path.ofString "a.rs") = false := by cbv
  obtain ⟨e, w', -, -, hrun⟩ | ⟨page, w', hpage, -, -⟩ := processDocument_apart (w := ⟨files, []⟩) hsame
  · exact ⟨e, by rw [hrun]⟩
  · have hplain : Strategy.choose nameless.template = .plain (Path.ofString "..") := by decide
    have hread : files.readText (Path.ofString "..") = .error .isADirectory := by cbv
    rw [pageText] at hpage
    split at hpage
    · cases hpage
    · rw [result_render] at hpage
      simp only [hplain, hread] at hpage
      cases hpage

/-- A template without a name is read as a plain one, and a page without a template may be replaced as a whole. -/
theorem processing_withoutName :
    (∃ e, (processDocument Template.engine .script (Path.ofString "a.rs") nameless ⟨files, []⟩).1 = .error e ∧
      ∀ text, e ≠ .config text) ∧
    ∃ content w', Content.produce .script whole (Path.ofString "a.rs") ⟨files, []⟩ = (.ok content, w') ∧
      (render Template.engine none [] content w').1 = .ok "D\n\nT" := by
  obtain ⟨hdocument, -, hbare⟩ := processing_finds_parameters
  constructor
  · obtain ⟨e, herror⟩ := processDocument_nameless
    exact ⟨e, herror, (hdocument _ _ _ _ _ herror).2⟩
  · have hread : files.readText (Path.ofString "a.rs") = .ok "x" := by cbv
    have htitle : Content.title .script (Path.ofString "a.rs")
        (Content.documentEvents .script (Path.ofString "a.rs") "x") = .ok "a" := by decide
    have hdocument : whole.replacements.get? "document" = some "D" := by decide
    have htooltips : whole.replacements.get? "tooltips" = some "T" := by decide
    obtain ⟨w', hproduce⟩ := (observes_produce .script whole (Path.ofString "a.rs")).exists_eq ⟨files, []⟩
      (Content.result_produce_of_title hread htitle whole)
    obtain ⟨text, -, -, -, hrender⟩ := hbare Template.engine _ _ _ [] _ _ _ hproduce
    refine ⟨_, w', hproduce, (hrender w').trans ?_⟩
    rw [hdocument, htooltips]
    rfl

end Layered
end Folio
