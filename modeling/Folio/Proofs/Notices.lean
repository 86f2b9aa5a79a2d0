import Folio.Ignore
import Folio.Proofs.Action

/-!
# Folio.Proofs.Notices

What is reported while work is done.

* `Notice.Extends`: notices that come after earlier ones, all of one kind.
* `Action.Reports`: work that reports notices of one kind only.
* `World.generated`: the pages that have been reported.
* `reports_load`, `reports_produce`, `reports_render`, `reports_renderToFile`: what the steps of a run report.
-/

namespace Folio

/-- Notices that come after earlier ones, and are of one kind. -/
def Notice.Extends (P : Notice → Prop) (earlier later : List Notice) : Prop :=
  ∃ more, later = earlier ++ more ∧ ∀ n ∈ more, P n

namespace Notice.Extends

variable {P Q : Notice → Prop} {first second third : List Notice} {n : Notice}

theorem refl (P : Notice → Prop) (notices : List Notice) : Extends P notices notices :=
  ⟨[], (List.append_nil _).symm, fun _ hn => absurd hn List.not_mem_nil⟩

theorem concat (h : P n) : Extends P first (first ++ [n]) :=
  ⟨[n], rfl, fun _ hm => List.mem_singleton.1 hm ▸ h⟩

theorem trans (h : Extends P first second) (h' : Extends P second third) : Extends P first third := by
  obtain ⟨more, rfl, hmore⟩ := h
  obtain ⟨more', rfl, hmore'⟩ := h'
  refine ⟨more ++ more', List.append_assoc .., fun n hn => ?_⟩
  exact (List.mem_append.1 hn).elim (hmore n) (hmore' n)

theorem mono (h : Extends P first second) (hPQ : ∀ n, P n → Q n) : Extends Q first second := by
  obtain ⟨more, hmore, hP⟩ := h
  exact ⟨more, hmore, fun n hn => hPQ n (hP n hn)⟩

theorem mem (h : Extends P first second) (hn : n ∈ first) : n ∈ second := by
  obtain ⟨more, rfl, -⟩ := h
  exact List.mem_append_left _ hn

end Notice.Extends

namespace Action

/-- Work that reports notices of one kind only. -/
def Reports {α : Type} (a : Action α) (P : Notice → Prop) : Prop :=
  ∀ w, Notice.Extends P w.notices (a w).2.notices

variable {P : Notice → Prop}

theorem reports_of_silent {α : Type} {a : Action α} (h : ∀ w, (a w).2.notices = w.notices) : a.Reports P := by
  intro w
  rw [h w]
  exact .refl P w.notices

theorem reports_fail {α : Type} (e : Error) : (fail e : Action α).Reports P :=
  reports_of_silent fun _ => rfl

theorem reports_ofExcept {α : Type} (r : Except Error α) : (ofExcept r).Reports P :=
  reports_of_silent fun _ => rfl

theorem reports_ask {α : Type} (question : FileSystem → α) : (ask question).Reports P :=
  reports_of_silent fun _ => rfl

theorem reports_readText (p : Path) : (readText p).Reports P := by
  refine reports_of_silent fun w => ?_
  rw [readText]
  split <;> rfl

theorem reports_writeText (p : Path) (text : String) : (writeText p text).Reports P := by
  refine reports_of_silent fun w => ?_
  rw [writeText]
  split <;> rfl

theorem reports_report {n : Notice} (h : P n) : (report n).Reports P :=
  fun _ => .concat h

theorem Reports.bind {α β : Type} {a : Action α} {f : α → Action β} (ha : a.Reports P) (hf : ∀ x, (f x).Reports P) :
    (a >>= f).Reports P := by
  intro w
  have hfirst := ha w
  rw [bind_eq]
  split
  · next x w₁ heq =>
    rw [heq] at hfirst
    exact hfirst.trans (hf x w₁)
  · next e w₁ heq =>
    rw [heq] at hfirst
    exact hfirst

theorem Reports.mono {Q : Notice → Prop} {α : Type} {a : Action α} (ha : a.Reports P) (hPQ : ∀ n, P n → Q n) :
    a.Reports Q :=
  fun w => (ha w).mono hPQ

theorem Reports.mem {α : Type} {a : Action α} (ha : a.Reports P) {w w' : World} {r : Except Error α}
    (hrun : a w = (r, w')) {n : Notice} (hn : n ∈ w.notices) : n ∈ w'.notices := by
  have hextends := ha w
  rw [hrun] at hextends
  exact hextends.mem hn

theorem mem_of_report {n : Notice} {w w' : World} {r : Except Error Unit} (hrun : report n w = (r, w')) :
    n ∈ w'.notices := by
  cases hrun
  exact List.mem_append_right _ (List.mem_singleton_self n)

end Action

/-! ### Pages -/

/-- The page that is reported. -/
def Notice.page? : Notice → Option Path
  | .generated page => some page
  | _ => none

/-- Notices on other things than pages that are there. -/
def Notice.IsQuiet (n : Notice) : Prop :=
  n.page? = none

/-- The pages that have been reported, first one first. -/
def World.generated (w : World) : List Path :=
  w.notices.filterMap Notice.page?

theorem generated_of_extends {w w' : World} (h : Notice.Extends Notice.IsQuiet w.notices w'.notices) :
    w'.generated = w.generated := by
  obtain ⟨more, hmore, hnone⟩ := h
  rw [World.generated, hmore, List.filterMap_append, List.filterMap_eq_nil_iff.2 hnone, List.append_nil]
  rfl

namespace Action

variable {α β : Type}

theorem Reports.generated {a : Action α} (ha : a.Reports Notice.IsQuiet) (w : World) :
    (a w).2.generated = w.generated :=
  generated_of_extends (ha w)

/-- A page that is reported at the end of work is reported if the work succeeds. -/
theorem Reports.bind_generated {a : Action α} (ha : a.Reports Notice.IsQuiet) (page : Path) (w : World) :
    match (a >>= fun _ => report (.generated page)) w with
    | (.ok _, w') => w'.generated = w.generated ++ [page]
    | (.error _, w') => w'.generated = w.generated := by
  have hfirst := ha.generated w
  rw [bind_eq]
  cases hrun : a w with
  | mk r w₁ =>
    rw [hrun] at hfirst
    cases r with
    | error e => exact hfirst
    | ok x =>
      show (w₁.notices ++ [Notice.generated page]).filterMap Notice.page? = w.generated ++ [page]
      rw [List.filterMap_append, ← hfirst]
      rfl

end Action

/-! ### The steps of a run -/

theorem reports_load (path : Path) : (IgnoreSet.load path).Reports fun n => n = .noIgnoreFile path := by
  refine (Action.reports_ask _).bind fun text => ?_
  cases text with
  | ok text => exact Action.reports_ofExcept _
  | error e =>
    have hreport : (Action.report (.noIgnoreFile path)).Reports fun n => n = .noIgnoreFile path :=
      Action.reports_report rfl
    exact hreport.bind fun _ => Action.reports_ofExcept _

variable {P : Notice → Prop}

theorem reports_produce (kind : DocumentKind) (settings : Settings) {source : Path} (h : P (.reading kind source)) :
    (Content.produce kind settings source).Reports P :=
  (Action.reports_readText source).bind fun _ =>
    (Action.reports_report h).bind fun _ => Action.reports_ofExcept _

theorem reports_render (renderer : Renderer) (template : Option Path) (layoutRoots : List Path) (content : Content)
    (hchosen : ∀ strategy, P (.chosen strategy)) (hcall : ∀ call, P (.rendering call)) :
    (render renderer template layoutRoots content).Reports P := by
  refine (Action.reports_report (hchosen _)).bind fun _ => ?_
  cases Strategy.choose template with
  | engine template =>
    dsimp only
    split
    · exact Action.reports_fail _
    · exact (Action.reports_report (hcall _)).bind fun _ =>
        (Action.reports_ask _).bind fun _ => Action.reports_ofExcept _
  | plain template => exact (Action.reports_readText template).bind fun _ => Action.reports_ofExcept _
  | bare => exact Action.reports_ofExcept _

theorem reports_writeOutput {output : Path} (text : String) (h : P (.writing output)) :
    (writeOutput output text).Reports P :=
  (Action.reports_report h).bind fun _ => Action.reports_writeText output text

theorem reports_renderToFile (renderer : Renderer) (template : Option Path) (layoutRoots : List Path)
    (content : Content) {output : Path} (hchosen : ∀ strategy, P (.chosen strategy))
    (hcall : ∀ call, P (.rendering call)) (hwriting : P (.writing output)) :
    (renderToFile renderer template layoutRoots content output).Reports P :=
  (reports_render renderer template layoutRoots content hchosen hcall).bind fun text =>
    reports_writeOutput text hwriting

end Folio
