import Folio.Document

/-!
# Folio.Proofs.Action

Work that only looks at the files.

* `Action.result`: what comes of work on some files.
* `Action.Observes`: the files stay as they are, and nothing else counts for the result.
* `pageText`: the text of the page of a document, as far as it is made without writing.
-/

namespace Folio
namespace Action

/-- What comes of work on some files. -/
def result {α : Type} (a : Action α) (fs : FileSystem) : Except Error α :=
  (a ⟨fs, []⟩).1

/-- Work that leaves the files as they are, and for which earlier notices do not count. -/
def Observes {α : Type} (a : Action α) : Prop :=
  ∀ w, (a w).2.fs = w.fs ∧ (a w).1 = a.result w.fs

theorem observes_of {α : Type} {a : Action α} {f : FileSystem → Except Error α}
    (h : ∀ w, (a w).2.fs = w.fs ∧ (a w).1 = f w.fs) : a.Observes := by
  intro w
  refine ⟨(h w).1, ?_⟩
  rw [(h w).2, result, (h ⟨w.fs, []⟩).2]

theorem bind_eq {α β : Type} (a : Action α) (f : α → Action β) (w : World) :
    (a >>= f) w = match a w with
      | (.ok x, w) => f x w
      | (.error e, w) => (.error e, w) :=
  rfl

theorem bind_of_ok {α β : Type} {a : Action α} (f : α → Action β) {w w' : World} {x : α} (h : a w = (.ok x, w')) :
    (a >>= f) w = f x w' := by
  rw [bind_eq, h]

/-- Work that comes to its end has come to the end of its first part. -/
theorem of_bind_ok {α β : Type} {a : Action α} {f : α → Action β} {w w' : World} {y : β}
    (h : (a >>= f) w = (.ok y, w')) : ∃ x w₁, a w = (.ok x, w₁) ∧ f x w₁ = (.ok y, w') := by
  rw [bind_eq] at h
  split at h
  · next x w₁ heq => exact ⟨x, w₁, heq, h⟩
  · cases h

theorem bind_assoc {α β γ : Type} (a : Action α) (f : α → Action β) (g : β → Action γ) :
    (a >>= f) >>= g = a >>= fun x => f x >>= g := by
  funext w
  simp only [bind_eq]
  cases a w with
  | mk r w₁ => cases r <;> rfl

theorem ask_bind {α β : Type} (question : FileSystem → α) (f : α → Action β) (w : World) :
    (ask question >>= f) w = f (question w.fs) w :=
  rfl

theorem observes_fail {α : Type} (e : Error) : (fail e : Action α).Observes :=
  fun _ => ⟨rfl, rfl⟩

theorem observes_ofExcept {α : Type} (r : Except Error α) : (ofExcept r).Observes :=
  fun _ => ⟨rfl, rfl⟩

theorem observes_report (n : Notice) : (report n).Observes :=
  fun _ => ⟨rfl, rfl⟩

theorem observes_ask {α : Type} (question : FileSystem → α) : (ask question).Observes :=
  fun _ => ⟨rfl, rfl⟩

theorem observes_readText (p : Path) : (readText p).Observes := by
  apply observes_of (f := fun fs => (fs.readText p).mapError Error.io)
  intro w
  rw [readText]
  split
  · next heq => exact ⟨rfl, by rw [heq]; rfl⟩
  · next heq => exact ⟨rfl, by rw [heq]; rfl⟩

theorem Observes.bind {α β : Type} {a : Action α} {f : α → Action β} (ha : a.Observes) (hf : ∀ x, (f x).Observes) :
    (a >>= f).Observes := by
  apply observes_of (f := fun fs =>
    match a.result fs with
    | .ok x => (f x).result fs
    | .error e => .error e)
  intro w
  obtain ⟨hfs, hres⟩ := ha w
  rw [bind_eq]
  split
  · next x w' heq =>
    rw [heq] at hfs hres
    obtain ⟨hfs', hres'⟩ := hf x w'
    rw [← hres]
    exact ⟨hfs'.trans hfs, hres'.trans (by rw [hfs])⟩
  · next e w' heq =>
    rw [heq] at hfs hres
    rw [← hres]
    exact ⟨hfs, rfl⟩

theorem Observes.result_bind {α β : Type} {a : Action α} {f : α → Action β} (ha : a.Observes)
    (hf : ∀ x, (f x).Observes) (fs : FileSystem) :
    (a >>= f).result fs = match a.result fs with
      | .ok x => (f x).result fs
      | .error e => .error e := by
  obtain ⟨hfs, -⟩ := ha ⟨fs, []⟩
  rw [result, result, bind_eq]
  cases hrun : a ⟨fs, []⟩ with
  | mk r w =>
    rw [hrun] at hfs
    cases r with
    | ok x =>
      dsimp only at hfs ⊢
      rw [(hf x w).2, hfs]
    | error e => rfl

/-- What work that only looks at the files gives is known from these. -/
theorem Observes.exists_eq {α : Type} {a : Action α} (ha : a.Observes) (w : World) {r : Except Error α}
    (h : a.result w.fs = r) : ∃ w', a w = (r, w') :=
  ⟨(a w).2, Prod.ext ((ha w).2.trans h) rfl⟩

/-- Work that begins by looking at the files ends there, or goes on with what it has found. -/
theorem Observes.bind_cases {α β : Type} {a : Action α} (ha : a.Observes) (f : α → Action β) (w : World) :
    (∃ e w', a.result w.fs = .error e ∧ w'.fs = w.fs ∧ (a >>= f) w = (.error e, w')) ∨
      ∃ x w', a.result w.fs = .ok x ∧ w'.fs = w.fs ∧ (a >>= f) w = f x w' := by
  obtain ⟨hfs, hres⟩ := ha w
  rw [bind_eq]
  split
  · next x w' heq =>
    rw [heq] at hfs hres
    exact .inr ⟨x, w', hres.symm, hfs, rfl⟩
  · next e w' heq =>
    rw [heq] at hfs hres
    exact .inl ⟨e, w', hres.symm, hfs, rfl⟩

end Action

theorem observes_produce (kind : DocumentKind) (settings : Settings) (source : Path) :
    (Content.produce kind settings source).Observes :=
  (Action.observes_readText source).bind fun _ => (Action.observes_report _).bind fun _ => Action.observes_ofExcept _

theorem observes_callRenderer (renderer : Renderer) (call : RenderCall) : (callRenderer renderer call).Observes :=
  (Action.observes_report _).bind fun _ => (Action.observes_ask _).bind fun _ => Action.observes_ofExcept _

theorem observes_render (renderer : Renderer) (template : Option Path) (layoutRoots : List Path) (content : Content) :
    (render renderer template layoutRoots content).Observes := by
  refine (Action.observes_report _).bind fun _ => ?_
  cases Strategy.choose template with
  | engine template =>
    dsimp only
    split
    · exact Action.observes_fail _
    · exact observes_callRenderer renderer _
  | plain template => exact (Action.observes_readText template).bind fun _ => Action.observes_ofExcept _
  | bare => exact Action.observes_ofExcept _

theorem result_produce (kind : DocumentKind) (settings : Settings) (source : Path) (fs : FileSystem) :
    (Content.produce kind settings source).result fs =
      match fs.readText source with
      | .error e => .error (.io e)
      | .ok text => Content.ofText kind settings source text := by
  rw [Content.produce, Action.result, Action.bind_eq, Action.readText]
  cases fs.readText source with
  | error e => rfl
  | ok text => rfl

theorem result_render (renderer : Renderer) (template : Option Path) (layoutRoots : List Path) (content : Content)
    (fs : FileSystem) :
    (render renderer template layoutRoots content).result fs =
      match Strategy.choose template with
      | .engine template =>
        match template.fileName?.bind Text.decode? with
        | none => .error (.config ("invalid template path: " ++ template.display))
        | some name => renderer fs (renderCall template name layoutRoots content)
      | .plain template =>
        match fs.readText template with
        | .error e => .error (.io e)
        | .ok text => plainPage (some text) content
      | .bare => plainPage none content := by
  rw [render, Action.result, Action.bind_eq, Action.report]
  cases Strategy.choose template with
  | engine template =>
    dsimp only
    cases template.fileName?.bind Text.decode? <;> rfl
  | plain template =>
    dsimp only
    rw [Action.bind_eq, Action.readText]
    dsimp only
    cases fs.readText template <;> rfl
  | bare => rfl

/-- The text of the page of a document, for the files as they are. -/
def pageText (renderer : Renderer) (kind : DocumentKind) (choices : Choices) (source : Path) (fs : FileSystem) :
    Except Error String :=
  match (Content.produce kind choices.settings source).result fs with
  | .error e => .error e
  | .ok content => (render renderer choices.template choices.layoutRoots content).result fs

theorem pageText_of_readText (renderer : Renderer) (kind : DocumentKind) (choices : Choices) {source : Path}
    {fs : FileSystem} {text : String} (h : fs.readText source = .ok text) :
    pageText renderer kind choices source fs =
      match Content.ofText kind choices.settings source text with
      | .error e => .error e
      | .ok content => (render renderer choices.template choices.layoutRoots content).result fs := by
  rw [pageText, result_produce, h]

theorem readText_of_pageText {renderer : Renderer} {kind : DocumentKind} {choices : Choices} {source : Path}
    {fs : FileSystem} {page : String} (h : pageText renderer kind choices source fs = .ok page) :
    ∃ text, fs.readText source = .ok text := by
  rw [pageText, result_produce] at h
  cases htext : fs.readText source with
  | ok text => exact ⟨text, rfl⟩
  | error e =>
    rw [htext] at h
    cases h

end Folio
