import Folio.Template.Call

/-!
# Folio.Proofs.Template.Refinement

Steps of an evaluation that do what other steps do, or fail.

* `Run.Refines`: whatever comes of the one comes of the other.
* `Run.Refines.bind`, `Run.Refines.inFrame` and others: steps made of such steps.
* `Worker.Refines`: the same for workers.
* `Run.refines_callName`, `Value.refines_call`: calls refine what their workers refine.
-/

namespace Folio
namespace Template

/-- Whatever comes of the steps `a` comes of the steps `b` too. -/
def Run.Refines {α : Type} (a b : Run α) : Prop :=
  ∀ m r, a m = .ok r → b m = .ok r

/-- Each job that the worker `w` does is done so by the worker `v` too. -/
def Worker.Refines (w v : Worker) : Prop :=
  ∀ job, Run.Refines (w job) (v job)

namespace Run

theorem bind_apply {α β : Type} (a : Run α) (f : α → Run β) (m : Machine) :
    (a >>= f) m = match a m with
      | .ok (x, m) => f x m
      | .error fault => .error fault := by
  show Except.bind (a m) _ = _
  cases a m <;> rfl

theorem Refines.refl {α : Type} (a : Run α) : Refines a a :=
  fun _ _ h => h

theorem Refines.of_fail {α : Type} (fault : TemplateFault) (b : Run α) : Refines (fail fault) b :=
  fun _ _ h => by cases h

theorem Refines.bind {α β : Type} {a b : Run α} {f g : α → Run β} (h : Refines a b)
    (hf : ∀ x, Refines (f x) (g x)) : Refines (a >>= f) (b >>= g) := by
  intro m r hr
  rw [bind_apply] at hr ⊢
  cases ha : a m with
  | error fault =>
    rw [ha] at hr
    cases hr
  | ok found =>
    rw [ha] at hr
    rw [h m found ha]
    exact hf found.1 found.2 r hr

/-- Steps that begin in the same way. -/
theorem Refines.after {α β : Type} (a : Run α) {f g : α → Run β} (hf : ∀ x, Refines (f x) (g x)) :
    Refines (a >>= f) (a >>= g) :=
  (Refines.refl a).bind hf

theorem Refines.before {α β : Type} {a b : Run α} (h : Refines a b) (f : α → Run β) :
    Refines (a >>= f) (b >>= f) :=
  h.bind fun x => Refines.refl (f x)

theorem Refines.ite {α : Type} (c : Prop) [Decidable c] {a b a' b' : Run α} (h : Refines a b) (h' : Refines a' b') :
    Refines (if c then a else a') (if c then b else b') := by
  split
  · exact h
  · exact h'

theorem Refines.unless {α : Type} (c : Prop) [Decidable c] (fault : TemplateFault) {f g : Unit → Run α}
    (h : ∀ u, Refines (f u) (g u)) :
    Refines (if c then fail fault >>= f else f ()) (if c then fail fault >>= g else g ()) :=
  .ite c (.after _ h) (h ())

theorem Refines.failingAs {α : Type} (fault : TemplateFault) {a b : Run α} (h : Refines a b) :
    Refines (failingAs fault a) (failingAs fault b) := by
  intro m r hr
  rw [Run.failingAs] at hr ⊢
  cases ha : a m with
  | error other =>
    rw [ha] at hr
    cases hr
  | ok found =>
    rw [ha] at hr
    rw [h m found ha]
    exact hr

theorem Refines.inFrame {α : Type} (f : Frame) {a b : Run α} (h : Refines a b) :
    Refines (inFrame f a) (inFrame f b) :=
  .after _ fun _ => .after _ fun _ => h.before _

theorem Refines.deeper {α : Type} (cost : Nat) {a b : Run α} (h : Refines a b) :
    Refines (deeper cost a) (deeper cost b) :=
  .after _ fun _ => .after _ fun _ => h.before _

theorem Refines.captured {α : Type} {a b : Run α} (h : Refines a b) : Refines (captured a) (captured b) :=
  .after _ fun _ => .after _ fun _ => h.before _

theorem Refines.discarded {α : Type} {a b : Run α} (h : Refines a b) : Refines (discarded a) (discarded b) :=
  .after _ fun _ => .after _ fun _ => h.before _

theorem Refines.withEscaping {α : Type} (e : Escaping) {a b : Run α} (h : Refines a b) :
    Refines (withEscaping e a) (withEscaping e b) :=
  .after _ fun _ => .after _ fun _ => h.before _

end Run

open Run

variable {w v : Worker}

/-! ### Calls -/

theorem Routine.refines_call (h : w.Refines v) (r : Routine) (vs : List Value) :
    Refines (r.call w vs) (r.call v vs) := by
  refine .after _ fun (values, caller) => .after _ fun outside => .after _ fun _ => .after _ fun _ => ?_
  exact (h (.routine r values)).before _

namespace Value

theorem refines_call (h : w.Refines v) (f : Value) (vs : List Value) : Refines (f.call w vs) (f.call v vs) := by
  cases f with
  | routine r => exact Routine.refines_call h r vs
  | _ => exact .refl _

theorem refines_callMember (h : w.Refines v) (x : Value) (name : String) (vs : List Value) :
    Refines (x.callMember w name vs) (x.callMember v name vs) := by
  unfold callMember
  refine .ite _ (.after _ fun m => ?_) (.refl _)
  split
  · exact refines_call h _ vs
  · exact .refl _

theorem refines_callMethod (h : w.Refines v) (x : Value) (name : String) (vs : List Value) :
    Refines (x.callMethod w name vs) (x.callMethod v name vs) := by
  unfold callMethod
  split
  · exact .refl _
  · exact .refl _
  · exact refines_callMember h x name vs

end Value

namespace Run

theorem refines_callBlock (h : w.Refines v) (name : String) : Refines (callBlock w name) (callBlock v name) := by
  unfold callBlock
  refine .after _ fun m => ?_
  split
  · exact .refl _
  · refine .after _ fun _ => .after _ fun _ => ?_
    exact (Refines.inFrame _ (h _)).before _

theorem refines_callSuper (h : w.Refines v) : Refines (callSuper w) (callSuper v) := by
  unfold callSuper
  refine .after _ fun m => ?_
  split
  · exact .refl _
  refine .after _ fun m => ?_
  split
  · exact .refl _
  split
  · exact .refl _
  · next body _ =>
    refine .after _ fun _ => ?_
    exact (Refines.captured (.inFrame _ (.failingAs _ (h (.statements body))))).before _

theorem refines_callLoop (h : w.Refines v) (items : Value) : Refines (callLoop w items) (callLoop v items) := by
  unfold callLoop
  refine .after _ fun m => ?_
  split
  · exact .refl _
  split
  · exact .refl _
  · exact (Refines.captured (h _)).before _

theorem refines_callName (h : w.Refines v) (name : String) (vs : List Value) :
    Refines (callName w name vs) (callName v name vs) := by
  unfold callName
  split
  · exact refines_callSuper h
  · exact .refl _
  · exact refines_callLoop h _
  · exact .refl _
  · refine .after _ fun m => ?_
    split
    · exact Value.refines_call h _ vs
    · exact .refl _

theorem refines_blockText (h : w.Refines v) (name : String) : Refines (blockText w name) (blockText v name) := by
  unfold blockText
  refine .after _ fun m => .ite _ (.refl _) ?_
  exact (Refines.captured (refines_callBlock h name)).before _

end Run
end Template
end Folio
