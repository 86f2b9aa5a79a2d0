import Folio.Template.Engine
import Folio.Proofs.Action
import Folio.Proofs.FileSystem.Leads
import Folio.Proofs.Template.Execution

/-!
# Folio.Proofs.Template.Engine

The files that count for a page.

* `Template.callWith`: the engine as a function of its loader.
* `Template.lookups`, `Template.LookedAt`: the files that are looked at for templates with certain names.
* `Template.dependsOn_engine`: for the engine, no other files count than those of the templates it asks for.
* `dependsOn_pageText`: for a page count the document and the files of its layout that are looked at.
-/

namespace Folio
namespace Template

/-- The text of a call with a loader. -/
def callWith (load : Loader) (call : RenderCall) : Except Error String :=
  match load call.name with
  | .error fault => .error (.template fault)
  | .ok document =>
    match run load jobBound document (Value.ofJson call.context) with
    | .error fault => .error (.template fault)
    | .ok text => .ok text

/-- The loader that gives the templates with certain names only. -/
def Loader.only (asked : String → Bool) (load : Loader) : Loader :=
  fun name => if asked name then load name else .error .invalidOperation

/-- The files that are looked at for a template: those in the directories, up to the first that is not missing. -/
def lookups (fs : FileSystem) (name : String) : List Path → List Path
  | [] => []
  | dir :: dirs =>
    match locate? dir name with
    | none => lookups fs name dirs
    | some p =>
      match fs.readText p with
      | .error .notFound => p :: lookups fs name dirs
      | _ => [p]

/-- A file that is looked at for a template with a certain name. -/
def LookedAt (dirs : List Path) (asked : String → Bool) (fs : FileSystem) (p : Path) : Prop :=
  ∃ name, asked name = true ∧ p ∈ lookups fs name dirs

theorem run_of_refines {f g : Loader} (h : f.Refines g) {bound : Nat} {document : Document} {context : Value}
    {text : String} (hrun : run f bound document context = .ok text) : run g bound document context = .ok text := by
  rw [run] at hrun ⊢
  cases hwork : work f bound (.statements document.body) (Machine.initial document context) with
  | error fault =>
    rw [hwork] at hrun
    cases hrun
  | ok found =>
    rw [hwork] at hrun
    rw [refines_work h bound _ _ _ hwork]
    exact hrun

theorem callWith_of_refines {f g : Loader} (h : f.Refines g) {call : RenderCall} {text : String}
    (hcall : callWith f call = .ok text) : callWith g call = .ok text := by
  rw [callWith] at hcall ⊢
  obtain heq | ⟨fault, hfault, -⟩ := h call.name
  · rw [← heq]
    cases hload : f call.name with
    | error fault =>
      rw [hload] at hcall
      cases hcall
    | ok document =>
      rw [hload] at hcall
      dsimp only at hcall ⊢
      cases hrun : run f jobBound document (Value.ofJson call.context) with
      | error fault =>
        rw [hrun] at hcall
        cases hcall
      | ok text' =>
        rw [hrun] at hcall
        rw [run_of_refines h hrun]
        exact hcall
  · rw [hfault] at hcall
    cases hcall

variable {fs fs' : FileSystem}

theorem lookups_cons_of_some {name : String} {dir p : Path} (dirs : List Path) (hp : locate? dir name = some p) :
    p ∈ lookups fs name (dir :: dirs) ∧
      (fs.readText p = .error .notFound → lookups fs name (dir :: dirs) = p :: lookups fs name dirs) := by
  rw [lookups, hp]
  dsimp only
  split
  · exact ⟨List.mem_cons_self, fun _ => rfl⟩
  · next hnot => exact ⟨List.mem_cons_self, fun hmissing => absurd hmissing hnot⟩

/-- The same files are looked at where the same ones of them are missing. -/
theorem lookups_eq {name : String} {dirs : List Path}
    (h : ∀ p ∈ lookups fs name dirs, fs'.readText p = .error .notFound ↔ fs.readText p = .error .notFound) :
    lookups fs' name dirs = lookups fs name dirs := by
  induction dirs with
  | nil => rfl
  | cons dir dirs ih =>
    cases hp : locate? dir name with
    | none =>
      simp only [lookups, hp] at h ⊢
      exact ih h
    | some p =>
      obtain ⟨hmem, hcons⟩ := @lookups_cons_of_some fs _ _ _ dirs hp
      obtain ⟨-, hcons'⟩ := @lookups_cons_of_some fs' _ _ _ dirs hp
      by_cases hmissing : fs.readText p = .error .notFound
      · rw [hcons hmissing] at h ⊢
        rw [hcons' ((h p List.mem_cons_self).2 hmissing)]
        rw [ih fun q hq => h q (List.mem_cons_of_mem p hq)]
      · have hmissing' : fs'.readText p ≠ .error .notFound := fun hm => hmissing ((h p hmem).1 hm)
        simp only [lookups, hp]

theorem findSource_of_agrees {name : String} {dirs : List Path}
    (h : ∀ p ∈ lookups fs' name dirs, fs.Agrees fs' p) :
    findSource fs' name dirs = findSource fs name dirs ∨ findSource fs' name dirs = .error .invalidOperation := by
  induction dirs with
  | nil => exact .inl rfl
  | cons dir dirs ih =>
    rw [findSource, findSource]
    cases hp : locate? dir name with
    | none =>
      simp only [lookups, hp] at h
      exact ih h
    | some p =>
      dsimp only
      obtain ⟨hmem, hcons⟩ := @lookups_cons_of_some fs' _ _ _ dirs hp
      obtain heq | ⟨e, he, hne⟩ := h p hmem
      · rw [heq]
        split
        · exact .inl rfl
        · next hmissing =>
          refine ih fun q hq => h q ?_
          rw [hcons hmissing]
          exact List.mem_cons_of_mem p hq
        · exact .inl rfl
      · rw [he]
        right
        cases e with
        | notFound => exact absurd rfl hne
        | _ => rfl

theorem refines_load {dirs : List Path} {asked : String → Bool}
    (h : ∀ p, LookedAt dirs asked fs' p → fs.Agrees fs' p) :
    (Loader.only asked (load fs' dirs)).Refines (load fs dirs) := by
  intro name
  rw [Loader.only]
  split
  · next hasked =>
    obtain heq | herror := @findSource_of_agrees fs fs' name dirs fun p hp => h p ⟨name, hasked, hp⟩
    · exact .inl (by rw [load, load, heq])
    · exact .inr ⟨.invalidOperation, by rw [load, herror], by simp⟩
  · exact .inr ⟨.invalidOperation, rfl, by simp⟩

/-- A call for which the engine asks for templates with these names only. -/
def AsksOnly (asked : String → Bool) (fs : FileSystem) (call : RenderCall) : Prop :=
  ∀ text, engine fs call = .ok text → callWith (Loader.only asked (load fs call.searchDirs)) call = .ok text

theorem asksOnly_all (fs : FileSystem) (call : RenderCall) : AsksOnly (fun _ => true) fs call :=
  fun _ h => h

theorem dependsOn_engine {asked : String → Bool} {call : RenderCall} (h : AsksOnly asked fs' call) :
    DependsOn (fun fs => engine fs call) fs' (LookedAt call.searchDirs asked fs') := by
  intro text htext fs hfiles
  exact callWith_of_refines (refines_load hfiles) (h text htext)

end Template

/-! ### Pages -/

variable {fs' : FileSystem}

/-- The files that count for the rendering of a page: the template, or the files that are looked at for the templates
which the engine asks for. -/
def layoutLookups (choices : Choices) (asked : String → Bool) (fs : FileSystem) (p : Path) : Prop :=
  match Strategy.choose choices.template with
  | .bare => False
  | .plain template => p = template
  | .engine template => Template.LookedAt (template.directory :: choices.layoutRoots) asked fs p

/-- The engine, if it is called for a page at all, asks for templates with these names only. -/
def Asks (kind : DocumentKind) (choices : Choices) (source : Path) (asked : String → Bool) (fs : FileSystem) : Prop :=
  ∀ content template name, (Content.produce kind choices.settings source).result fs = .ok content →
    Strategy.choose choices.template = .engine template → template.fileName?.bind Text.decode? = some name →
      Template.AsksOnly asked fs (renderCall template name choices.layoutRoots content)

theorem asks_all (kind : DocumentKind) (choices : Choices) (source : Path) (fs : FileSystem) :
    Asks kind choices source (fun _ => true) fs :=
  fun _ _ _ _ _ _ => Template.asksOnly_all fs _

/-- For a page count its document and the files of its layout that are looked at. -/
theorem dependsOn_pageText {kind : DocumentKind} {choices : Choices} {source : Path} {asked : String → Bool}
    (h : Asks kind choices source asked fs') :
    DependsOn (pageText Template.engine kind choices source) fs' fun p =>
      p = source ∨ layoutLookups choices asked fs' p := by
  intro text htext fs hfiles
  obtain ⟨document, hdocument⟩ := readText_of_pageText htext
  -- A file that agrees is the same or cannot be read. The document has been read, and so it is the same.
  have hsource : fs.readText source = .ok document := by
    obtain heq | ⟨e, he, -⟩ := hfiles source (.inl rfl)
    · rw [heq, hdocument]
    · rw [hdocument] at he
      cases he
  rw [pageText_of_readText _ _ _ hdocument] at htext
  rw [pageText_of_readText _ _ _ hsource]
  cases hcontent : Content.ofText kind choices.settings source document with
  | error e =>
    rw [hcontent] at htext
    cases htext
  | ok content =>
    rw [hcontent] at htext
    dsimp only at htext ⊢
    have hproduce : (Content.produce kind choices.settings source).result fs' = .ok content := by
      rw [result_produce, hdocument]
      exact hcontent
    have hlayout : ∀ p, layoutLookups choices asked fs' p → fs.Agrees fs' p := fun p hp => hfiles p (.inr hp)
    rw [result_render] at htext ⊢
    -- Which files of the layout count depends on the kind of the template.
    cases hchoose : Strategy.choose choices.template with
    | bare =>
      rw [hchoose] at htext
      exact htext
    | plain template =>
      rw [hchoose] at htext
      dsimp only at htext ⊢
      obtain heq | ⟨e, he, -⟩ := hlayout template (by rw [layoutLookups, hchoose])
      · rw [heq]
        exact htext
      · rw [he] at htext
        cases htext
    | engine template =>
      rw [hchoose] at htext
      dsimp only at htext ⊢
      cases hname : template.fileName?.bind Text.decode? with
      | none =>
        rw [hname] at htext
        cases htext
      | some name =>
        rw [hname] at htext
        dsimp only at htext ⊢
        refine Template.dependsOn_engine (h content template name hproduce hchoose hname) text htext fs ?_
        intro p hp
        refine hlayout p ?_
        rw [layoutLookups, hchoose]
        exact hp

end Folio
