import Folio.Template.Evaluation
import Folio.Proofs.Template.Refinement

/-!
# Folio.Proofs.Template.Evaluation

Expressions and targets with workers that refine each other.

* `Expr.refines_eval`: what comes of an expression comes of it with the other worker too.
* `Target.refines_assign`: so it is with a target that is given a value.
-/

namespace Folio
namespace Template

open Run

variable {w v : Worker}

theorem Expr.eval_call {given : Given} {callee : Expr} {arguments : List Argument} (hname : ∀ id, callee ≠ .name id)
    (hmember : ∀ e name, callee ≠ .member e name) :
    (Expr.call callee arguments).eval w given =
      (callee.eval w {} >>= fun f => Argument.evalAll w given.named arguments >>= f.call w) := by
  rw [Expr.eval]
  · exact hname
  · exact fun name => hmember _ name
  · exact hmember

/-- Arguments are evaluated in two rounds, those without names first. -/
theorem Argument.refines_evalAll {arguments : List Argument}
    (hpositional : Refines (Argument.evalPositional w arguments) (Argument.evalPositional v arguments))
    (hnamed : Refines (Argument.evalNamed w arguments) (Argument.evalNamed v arguments))
    (more : List (Value × Value)) :
    Refines (Argument.evalAll w more arguments) (Argument.evalAll v more arguments) := by
  rw [Argument.evalAll, Argument.evalAll]
  exact hpositional.bind fun _ => hnamed.before _

/-- A call evaluates what is called and the arguments; for a member, the value that it belongs to. -/
theorem Expr.refines_call (h : w.Refines v) {given : Given} {callee : Expr} {arguments : List Argument}
    (hcallee : Refines (callee.eval w {}) (callee.eval v {}))
    (hmember : ∀ e name, callee = .member e name → Refines (e.eval w {}) (e.eval v {}))
    (harguments : Refines (Argument.evalAll w given.named arguments) (Argument.evalAll v given.named arguments)) :
    Refines ((Expr.call callee arguments).eval w given) ((Expr.call callee arguments).eval v given) := by
  by_cases hname : ∃ id, callee = .name id
  · obtain ⟨id, rfl⟩ := hname
    rw [Expr.eval, Expr.eval]
    exact harguments.bind fun vs => refines_callName h id vs
  by_cases hof : ∃ e name, callee = .member e name
  · obtain ⟨e, name, rfl⟩ := hof
    by_cases hself : e = .name "self"
    · rw [hself, Expr.eval, Expr.eval]
      exact refines_blockText h name
    · rw [Expr.eval, Expr.eval]
      · exact (hmember e name rfl).bind fun x => harguments.bind fun vs => Value.refines_callMethod h x name vs
      · exact hself
      · exact hself
  · rw [not_exists] at hname
    simp only [not_exists] at hof
    rw [Expr.eval_call hname hof, Expr.eval_call hname hof]
    exact hcallee.bind fun f => harguments.bind fun vs => Value.refines_call h f vs

mutual

theorem Expr.refines_eval (h : w.Refines v) (given : Given) (e : Expr) : Refines (e.eval w given) (e.eval v given) := by
  match e with
  | .literal l =>
    rw [Expr.eval, Expr.eval]
    exact .refl _
  | .name id =>
    rw [Expr.eval, Expr.eval]
    exact .refl _
  | .unary op e =>
    cases op with
    | not =>
      rw [Expr.eval, Expr.eval]
      exact (Expr.refines_eval h {} e).before _
    | negate =>
      rw [Expr.eval, Expr.eval]
      exact (Expr.refines_eval h {} e).before _
  | .binary op a b =>
    cases op with
    | either =>
      rw [Expr.eval, Expr.eval]
      exact (Expr.refines_eval h {} a).bind fun x => .after _ fun t => .ite _ (.refl _) (Expr.refines_eval h {} b)
    | both =>
      rw [Expr.eval, Expr.eval]
      exact (Expr.refines_eval h {} a).bind fun x => .after _ fun t => .ite _ (Expr.refines_eval h {} b) (.refl _)
    | _ =>
      simp only [Expr.eval]
      exact (Expr.refines_eval h {} a).bind fun x => (Expr.refines_eval h {} b).before _
  | .choice test yes no =>
    rw [Expr.eval, Expr.eval]
    refine (Expr.refines_eval h {} test).bind fun x => .after _ fun t => .ite _ (Expr.refines_eval h {} yes) ?_
    exact Expr.refines_evalOptional h _ no
  | .filter name e arguments =>
    have hpositional := Argument.refines_evalPositional h arguments
    have hnamed := Argument.refines_evalNamed h arguments
    rw [Expr.eval, Expr.eval]
    refine (Expr.refines_evalOptional h _ e).bind fun x => ?_
    exact (Argument.refines_evalAll hpositional hnamed []).before _
  | .test name e arguments =>
    have hpositional := Argument.refines_evalPositional h arguments
    have hnamed := Argument.refines_evalNamed h arguments
    rw [Expr.eval, Expr.eval]
    exact (Expr.refines_eval h {} e).bind fun x => (Argument.refines_evalAll hpositional hnamed []).before _
  | .member e name =>
    rw [Expr.eval, Expr.eval]
    exact (Expr.refines_eval h {} e).before _
  | .item e key =>
    rw [Expr.eval, Expr.eval]
    exact (Expr.refines_eval h {} e).bind fun x => (Expr.refines_eval h {} key).before _
  | .slice e start stop step =>
    rw [Expr.eval, Expr.eval]
    refine (Expr.refines_eval h {} e).bind fun x => (Expr.refines_evalOptional h _ start).bind fun _ => ?_
    exact (Expr.refines_evalOptional h _ stop).bind fun _ => (Expr.refines_evalOptional h _ step).before _
  | .call callee arguments =>
    have harguments := Argument.refines_evalAll (Argument.refines_evalPositional h arguments)
      (Argument.refines_evalNamed h arguments) given.named
    -- A member is called on its object, so that this is evaluated and not the callee. The match makes it a part of the
    -- callee for the recursion.
    have hinner : ∀ e name, callee = .member e name → Refines (e.eval w {}) (e.eval v {}) := by
      intro e name heq
      match callee with
      | .member e' name' =>
        have he := Expr.refines_eval h {} e'
        cases heq
        exact he
    exact Expr.refines_call h (Expr.refines_eval h {} callee) hinner harguments
  | .list items =>
    rw [Expr.eval, Expr.eval]
    exact (Expr.refines_evalAll h items).before _
  | .dict pairs =>
    rw [Expr.eval, Expr.eval]
    exact (Expr.refines_evalPairs h pairs).before _

theorem Expr.refines_evalOptional (h : w.Refines v) (other : Value) (e : Option Expr) :
    Refines (Expr.evalOptional w other e) (Expr.evalOptional v other e) := by
  match e with
  | none =>
    rw [Expr.evalOptional, Expr.evalOptional]
    exact .refl _
  | some e =>
    rw [Expr.evalOptional, Expr.evalOptional]
    exact Expr.refines_eval h _ e

theorem Expr.refines_evalAll (h : w.Refines v) (es : List Expr) : Refines (Expr.evalAll w es) (Expr.evalAll v es) := by
  match es with
  | [] =>
    rw [Expr.evalAll, Expr.evalAll]
    exact .refl _
  | e :: es =>
    rw [Expr.evalAll, Expr.evalAll]
    exact (Expr.refines_eval h {} e).bind fun x => (Expr.refines_evalAll h es).before _

theorem Expr.refines_evalPairs (h : w.Refines v) (pairs : List (Expr × Expr)) :
    Refines (Expr.evalPairs w pairs) (Expr.evalPairs v pairs) := by
  match pairs with
  | [] =>
    rw [Expr.evalPairs, Expr.evalPairs]
    exact .refl _
  | (key, value) :: pairs =>
    rw [Expr.evalPairs, Expr.evalPairs]
    refine (Expr.refines_eval h {} key).bind fun k => (Expr.refines_eval h {} value).bind fun x => ?_
    exact (Expr.refines_evalPairs h pairs).before _

theorem Argument.refines_evalPositional (h : w.Refines v) (arguments : List Argument) :
    Refines (Argument.evalPositional w arguments) (Argument.evalPositional v arguments) := by
  match arguments with
  | [] =>
    rw [Argument.evalPositional, Argument.evalPositional]
    exact .refl _
  | a :: arguments =>
    have hrest := Argument.refines_evalPositional h arguments
    cases a with
    | positional e =>
      rw [Argument.evalPositional, Argument.evalPositional]
      exact (Expr.refines_eval h {} e).bind fun x => hrest.before _
    | spread e =>
      rw [Argument.evalPositional, Argument.evalPositional]
      exact (Expr.refines_eval h {} e).bind fun x => .after _ fun _ => hrest.before _
    | _ =>
      simp only [Argument.evalPositional]
      exact hrest

theorem Argument.refines_evalNamed (h : w.Refines v) (arguments : List Argument) :
    Refines (Argument.evalNamed w arguments) (Argument.evalNamed v arguments) := by
  match arguments with
  | [] =>
    rw [Argument.evalNamed, Argument.evalNamed]
    exact .refl _
  | a :: arguments =>
    have hrest := Argument.refines_evalNamed h arguments
    cases a with
    | named name e =>
      rw [Argument.evalNamed, Argument.evalNamed]
      exact (Expr.refines_eval h {} e).bind fun x => hrest.before _
    | spreadNamed e =>
      rw [Argument.evalNamed, Argument.evalNamed]
      exact (Expr.refines_eval h {} e).bind fun x => .after _ fun _ => hrest.before _
    | _ =>
      simp only [Argument.evalNamed]
      exact hrest

end

mutual

theorem Target.refines_assign (h : w.Refines v) (target : Target) (x : Value) :
    Refines (target.assign w x) (target.assign v x) := by
  match target with
  | .name id =>
    rw [Target.assign, Target.assign]
    exact .refl _
  | .list targets =>
    rw [Target.assign, Target.assign]
    exact .after _ fun xs => Target.refines_assignAll h targets xs
  | .member e id =>
    rw [Target.assign, Target.assign]
    exact (Expr.refines_eval h {} e).before _

theorem Target.refines_assignAll (h : w.Refines v) (targets : List Target) (xs : List Value) :
    Refines (Target.assignAll w targets xs) (Target.assignAll v targets xs) := by
  match targets, xs with
  | [], _ =>
    rw [Target.assignAll, Target.assignAll]
    exact .refl _
  | _ :: _, [] =>
    rw [Target.assignAll, Target.assignAll]
    exact .refl _
  | target :: targets, x :: xs =>
    rw [Target.assignAll, Target.assignAll]
    exact (Target.refines_assign h target x).bind fun _ => Target.refines_assignAll h targets xs

end

end Template
end Folio
