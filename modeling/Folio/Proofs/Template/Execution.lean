import Folio.Template.Execution
import Folio.Proofs.Template.Evaluation

/-!
# Folio.Proofs.Template.Execution

Statements with loaders that give less.

* `Loader.Refines`: a loader that gives the same templates as another one, or fails.
* `Statement.refines_exec`: what comes of a statement comes of it with the other loader too.
* `refines_work`: so it is with a job of whatever depth.
-/

namespace Folio
namespace Template

open Run

/-- A template that the loader `f` gives, or finds missing, is given or missing for the loader `g` too. -/
def Loader.Refines (f g : Loader) : Prop :=
  ∀ name, f name = g name ∨ ∃ fault, f name = .error fault ∧ fault ≠ .templateNotFound

variable {f g : Loader} {w v : Worker}

/-! ### Loops -/

theorem refines_turns (enter enter' : Nat → Option Value → Option Value → Value → Run Unit) (body body' : Run Signal)
    (henter : ∀ index before after x, Refines (enter index before after x) (enter' index before after x))
    (hbody : Refines body body') (index : Nat) (before : Option Value) (xs : List Value) :
    Refines (turns enter body index before xs) (turns enter' body' index before xs) := by
  induction xs generalizing index before with
  | nil => exact .refl _
  | cons x xs ih =>
    refine (henter index before xs.head? x).bind fun _ => hbody.bind fun signal => ?_
    cases signal with
    | leave => exact .refl _
    | next => exact ih _ _
    | skip => exact ih _ _

theorem refines_runLoop (h : w.Refines v) (again : Option (Target × List Statement)) (isNamed : Bool)
    (target : Target) (x : Value) {body body' : Run Signal} (hbody : Refines body body') :
    Refines (runLoop w again isNamed target x body) (runLoop v again isNamed target x body') := by
  refine .after _ fun items => .after _ fun m => .after _ fun _ => ?_
  refine (Refines.inFrame _ (refines_turns _ _ _ _ ?_ hbody _ _ items)).before _
  exact fun index before after x => .after _ fun _ => Target.refines_assign h target x

theorem refines_filterAuxM {p q : Value → Run Bool} (h : ∀ x, Refines (p x) (q x)) (xs chosen : List Value) :
    Refines (xs.filterAuxM p chosen) (xs.filterAuxM q chosen) := by
  induction xs generalizing chosen with
  | nil => exact .refl _
  | cons x xs ih => exact (h x).bind fun isChosen => ih _

theorem refines_chosenItems (h : w.Refines v) (target : Target) (x : Value) (condition : Expr) :
    Refines (chosenItems w target x condition) (chosenItems v target x condition) := by
  refine .after _ fun items => .after _ fun m => ?_
  refine (Refines.inFrame _ ((refines_filterAuxM (fun x => ?_) items []).before _)).before _
  exact (Target.refines_assign h target x).bind fun _ => (Expr.refines_eval h {} condition).before _

/-! ### Other templates -/

theorem refines_ofLoader (h : f.Refines g) (name : String) : Refines (ofResult (f name)) (ofResult (g name)) := by
  obtain heq | ⟨fault, hfault, -⟩ := h name
  · rw [heq]
    exact .refl _
  · rw [hfault]
    exact .of_fail fault _

theorem refines_inheritFrom (h : f.Refines g) (x : Value) : Refines (inheritFrom f x) (inheritFrom g x) := by
  unfold inheritFrom
  refine .after _ fun m => .unless _ _ fun _ => .after _ fun name => .after _ fun m => .unless _ _ fun _ => ?_
  exact (refines_ofLoader h name).before _

theorem refines_firstTemplate (h : f.Refines g) (xs : List Value) :
    Refines (firstTemplate f xs) (firstTemplate g xs) := by
  induction xs with
  | nil => exact .refl _
  | cons x xs ih =>
    refine .after _ fun name => ?_
    obtain heq | ⟨fault, hfault, hne⟩ := h name
    · rw [heq]
      split
      · exact .refl _
      · exact ih
      · exact .refl _
    · rw [hfault]
      split
      · next heq => cases heq
      · next heq =>
        cases heq
        exact absurd rfl hne
      · exact .of_fail _ _

theorem refines_insertDocument (h : w.Refines v) (document : Document) :
    Refines (insertDocument w document) (insertDocument v document) := by
  refine .after _ fun outside => .after _ fun _ => ?_
  exact (Refines.deeper _ (.failingAs _ (h (.statements document.body)))).before _

theorem refines_insertFirst (hf : f.Refines g) (h : w.Refines v) (x : Value) (ignoreMissing : Bool) :
    Refines (insertFirst f w x ignoreMissing) (insertFirst g v x ignoreMissing) := by
  refine .after _ fun names => (refines_firstTemplate hf names).bind fun found => ?_
  cases found with
  | none => exact .refl _
  | some document => exact refines_insertDocument h document

theorem refines_loadLibrary (hf : f.Refines g) (h : w.Refines v) (e : Expr) :
    Refines (loadLibrary f w e) (loadLibrary g v e) := by
  refine (Refines.captured (.inFrame _ ?_)).before _
  exact (Expr.refines_eval h {} e).bind fun x => (refines_insertFirst hf h x false).before _

theorem refines_takeNames (hf : f.Refines g) (h : w.Refines v) (e : Expr) (names : List String) :
    Refines (takeNames f w e names) (takeNames g v e names) := by
  refine .discarded (.inFrame _ ?_)
  exact (Expr.refines_eval h {} e).bind fun x => (refines_insertFirst hf h x false).before _

/-! ### Macros -/

theorem refines_bindParameters (h : w.Refines v) (parameters : List ((String × Option Expr) × Value)) :
    Refines (bindParameters w parameters) (bindParameters v parameters) := by
  induction parameters with
  | nil => exact .refl _
  | cons p parameters ih =>
    obtain ⟨⟨name, other⟩, x⟩ := p
    have hrest : ∀ x, Refines (store name x >>= fun _ => bindParameters w parameters)
        (store name x >>= fun _ => bindParameters v parameters) := fun _ => .after _ fun _ => ih
    cases other with
    | none => exact .after _ hrest
    | some e => exact .ite _ ((Expr.refines_eval h {} e).bind hrest) (.after _ hrest)

theorem refines_throughFilter (h : w.Refines v) (filter : Option Expr) (s : String) :
    Refines (throughFilter w filter s) (throughFilter v filter s) := by
  refine .after _ fun x => ?_
  cases filter with
  | none => exact .refl _
  | some e => exact Expr.refines_eval h _ e

/-! ### Statements -/

theorem refines_forM {α : Type} {a b : α → Run PUnit} (h : ∀ x, Refines (a x) (b x)) (xs : List α) :
    Refines (xs.forM a) (xs.forM b) := by
  induction xs with
  | nil => exact .refl _
  | cons x xs ih => exact (h x).bind fun _ => ih

mutual

theorem Statement.refines_exec (hf : f.Refines g) (h : w.Refines v) (s : Statement) :
    Refines (s.exec f w) (s.exec g v) := by
  -- By recursion on the statement. What the two runs share is behind `after` and `before`; they differ only where the
  -- worker is asked, and there `h` is used.
  match s with
  | .text cs =>
    rw [Statement.exec, Statement.exec]
    exact .refl _
  | .print e =>
    rw [Statement.exec, Statement.exec]
    exact (Expr.refines_eval h {} e).before _
  | .loop target items condition isRecursive body otherwise =>
    have hbody := Statement.refines_execAll hf h body
    have hotherwise := Statement.refines_execAll hf h otherwise
    rw [Statement.exec, Statement.exec]
    refine (Expr.refines_eval h {} items).bind fun x => ?_
    have hrest : ∀ x, Refines _ _ := fun x =>
      (refines_runLoop h (if isRecursive then some (target, body) else none) true target x hbody).bind fun some =>
        .ite (some = true) (.refl (pure Signal.next)) hotherwise
    cases condition with
    | none => exact .after _ hrest
    | some condition => exact (refines_chosenItems h target x condition).bind hrest
  | .branch test yes no =>
    have hyes := Statement.refines_execAll hf h yes
    have hno := Statement.refines_execAll hf h no
    rw [Statement.exec, Statement.exec]
    exact (Expr.refines_eval h {} test).bind fun x => .after _ fun t => .ite _ hyes hno
  | .within assignments body =>
    have hbody := Statement.refines_execAll hf h body
    rw [Statement.exec, Statement.exec]
    refine .inFrame _ ((refines_forM (fun a => ?_) assignments).bind fun _ => hbody)
    exact (Expr.refines_eval h {} a.2).bind fun x => Target.refines_assign h a.1 x
  | .assign target e =>
    rw [Statement.exec, Statement.exec]
    exact (Expr.refines_eval h {} e).bind fun x => (Target.refines_assign h target x).before _
  | .capture target filter body =>
    have hbody := Statement.refines_execAll hf h body
    rw [Statement.exec, Statement.exec]
    refine (Refines.captured hbody).bind fun (signal, s) => (refines_throughFilter h filter s).bind fun x => ?_
    exact (Target.refines_assign h target x).before _
  | .escaping mode body =>
    have hbody := Statement.refines_execAll hf h body
    rw [Statement.exec, Statement.exec]
    exact (Expr.refines_eval h {} mode).bind fun x => .after _ fun e => .withEscaping e hbody
  | .filtered filter body =>
    have hbody := Statement.refines_execAll hf h body
    rw [Statement.exec, Statement.exec]
    exact (Refines.captured hbody).bind fun (signal, s) => (refines_throughFilter h (some filter) s).before _
  | .block name body =>
    rw [Statement.exec, Statement.exec]
    refine .after _ fun m => ?_
    exact .ite _ ((refines_callBlock h name).before _) (.refl _)
  | .inherit e =>
    rw [Statement.exec, Statement.exec]
    exact (Expr.refines_eval h {} e).bind fun x => (refines_inheritFrom hf x).before _
  | .insert e ignoreMissing =>
    rw [Statement.exec, Statement.exec]
    exact (Expr.refines_eval h {} e).bind fun x => (refines_insertFirst hf h x ignoreMissing).before _
  | .load e target =>
    rw [Statement.exec, Statement.exec]
    exact (refines_loadLibrary hf h e).bind fun x => (Target.refines_assign h target x).before _
  | .loadNames e names =>
    rw [Statement.exec, Statement.exec]
    exact (refines_takeNames hf h e _).before _
  | .define name parameters body =>
    rw [Statement.exec, Statement.exec]
    exact .refl _
  | .callWith callee arguments parameters body =>
    rw [Statement.exec, Statement.exec]
    -- The body is not run here: it is given to the call as a macro, which the worker runs.
    refine .after _ fun routine => (Refines.before ?_ _)
    exact Expr.refines_eval h _ (.call callee arguments)
  | .perform callee arguments =>
    rw [Statement.exec, Statement.exec]
    exact (Expr.refines_eval h {} (.call callee arguments)).before _
  | .skip =>
    rw [Statement.exec, Statement.exec]
    exact .refl _
  | .leave =>
    rw [Statement.exec, Statement.exec]
    exact .refl _

theorem Statement.refines_execAll (hf : f.Refines g) (h : w.Refines v) (ss : List Statement) :
    Refines (Statement.execAll f w ss) (Statement.execAll g v ss) := by
  match ss with
  | [] =>
    rw [Statement.execAll, Statement.execAll]
    exact .refl _
  | s :: ss =>
    have hrest := Statement.refines_execAll hf h ss
    rw [Statement.execAll, Statement.execAll]
    refine (Statement.refines_exec hf h s).bind fun signal => ?_
    cases signal with
    | next => exact hrest
    | skip => exact .refl _
    | leave => exact .refl _

end

/-! ### Jobs -/

theorem refines_continueWithParent (h : w.Refines v) (discards : Bool) :
    Refines (continueWithParent w discards) (continueWithParent v discards) := by
  refine .after _ fun m => ?_
  split
  · exact .refl _
  · exact .after _ fun _ => h _

theorem refines_runStatements (hf : f.Refines g) (h : w.Refines v) (ss : List Statement) :
    Refines (runStatements f w ss) (runStatements g v ss) := by
  refine .after _ fun outside => .after _ fun _ => (Statement.refines_execAll hf h ss).bind fun _ => ?_
  exact (refines_continueWithParent h outside.discards).before _

/-- A job that is done with a loader that gives less is done so with the other one too. -/
theorem refines_work (hf : f.Refines g) (n : Nat) : Worker.Refines (work f n) (work g n) := by
  induction n with
  | zero => exact fun _ => .refl _
  | succ n ih =>
    intro job
    cases job with
    | statements ss =>
      rw [work, work]
      exact refines_runStatements hf ih ss
    | routine r xs =>
      rw [work, work]
      exact (refines_bindParameters ih _).bind fun _ => (Statement.refines_execAll hf ih r.body).before _
    | again target body items =>
      rw [work, work]
      exact (refines_runLoop ih _ true target items (Statement.refines_execAll hf ih body)).before _

end Template
end Folio
