import Mathlib.Data.List.Basic
import Folio.FileSystem.Basic

/-!
# Folio.Proofs.FileSystem.Order

The order in which entries are visited.

* `lexLe`: lists by their first difference. `Linear.lex`: it orders lists as well as their members are ordered.
* `linear_nameLe`: byte order of names is linear.
* `namesLe`: the order of a depth-first visit, with siblings in byte order of their names.
-/

namespace Folio
namespace FileSystem

structure Linear {α : Type} (le : α → α → Bool) : Prop where
  total : ∀ a b, (le a b || le b a) = true
  trans : ∀ a b c, le a b = true → le b c = true → le a c = true
  antisymm : ∀ a b, le a b = true → le b a = true → a = b

/-- Lists by their first difference; a start of a list comes before it. -/
def lexLe {α : Type} [DecidableEq α] (le : α → α → Bool) : List α → List α → Bool
  | [], _ => true
  | _ :: _, [] => false
  | a :: as, b :: bs => if a = b then lexLe le as bs else le a b

section Lex

variable {α : Type} [DecidableEq α] {le : α → α → Bool}

theorem Linear.lex_total (h : Linear le) (as bs : List α) : (lexLe le as bs || lexLe le bs as) = true := by
  induction as generalizing bs with
  | nil => rfl
  | cons a as ih =>
    cases bs with
    | nil => rfl
    | cons b bs =>
      by_cases hab : a = b
      · subst hab
        simp only [lexLe, if_true]
        exact ih bs
      · simp only [lexLe, if_neg hab, if_neg (Ne.symm hab)]
        exact h.total a b

theorem Linear.lex_trans (h : Linear le) (as bs cs : List α) (hab : lexLe le as bs = true)
    (hbc : lexLe le bs cs = true) : lexLe le as cs = true := by
  induction as generalizing bs cs with
  | nil => rfl
  | cons a as ih =>
    cases bs with
    | nil => cases hab
    | cons b bs =>
      cases cs with
      | nil => cases hbc
      | cons c cs =>
        simp only [lexLe] at hab hbc ⊢
        by_cases h₁ : a = b
        · by_cases h₂ : b = c
          · rw [if_pos h₁] at hab
            rw [if_pos h₂] at hbc
            rw [if_pos (h₁.trans h₂)]
            exact ih bs cs hab hbc
          · rw [if_neg h₂] at hbc
            rw [h₁, if_neg h₂]
            exact hbc
        · rw [if_neg h₁] at hab
          by_cases h₂ : b = c
          · rw [← h₂, if_neg h₁]
            exact hab
          · rw [if_neg h₂] at hbc
            have hac : a ≠ c := by
              rintro rfl
              exact h₁ (h.antisymm a b hab hbc)
            rw [if_neg hac]
            exact h.trans a b c hab hbc

theorem Linear.lex_antisymm (h : Linear le) (as bs : List α) (hab : lexLe le as bs = true)
    (hba : lexLe le bs as = true) : as = bs := by
  induction as generalizing bs with
  | nil =>
    cases bs with
    | nil => rfl
    | cons b bs => cases hba
  | cons a as ih =>
    cases bs with
    | nil => cases hab
    | cons b bs =>
      simp only [lexLe] at hab hba
      by_cases heq : a = b
      · rw [if_pos heq] at hab
        rw [if_pos heq.symm] at hba
        rw [heq, ih bs hab hba]
      · rw [if_neg heq] at hab
        rw [if_neg (Ne.symm heq)] at hba
        exact absurd (h.antisymm a b hab hba) heq

theorem Linear.lex (h : Linear le) : Linear (lexLe le) :=
  ⟨h.lex_total, h.lex_trans, h.lex_antisymm⟩

end Lex

def byteLe (a b : UInt8) : Bool :=
  decide (a.toNat ≤ b.toNat)

theorem linear_byteLe : Linear byteLe := by
  refine ⟨fun a b => ?_, fun a b c hab hbc => ?_, fun a b hab hba => ?_⟩
  · rw [byteLe, byteLe, Bool.or_eq_true, decide_eq_true_eq, decide_eq_true_eq]
    omega
  · rw [byteLe, decide_eq_true_eq] at hab hbc ⊢
    omega
  · rw [byteLe, decide_eq_true_eq] at hab hba
    exact UInt8.toNat_inj.1 (by omega)

theorem nameLe_eq : nameLe = lexLe byteLe := by
  funext a b
  induction a generalizing b with
  | nil => rfl
  | cons a as ih =>
    cases b with
    | nil => rfl
    | cons b bs =>
      simp only [nameLe, lexLe, byteLe, UInt8.lt_iff_toNat_lt, ih]
      by_cases heq : a = b
      · subst heq
        simp
      · have hne : a.toNat ≠ b.toNat := fun h => heq (UInt8.toNat_inj.1 h)
        rw [if_neg heq]
        by_cases hlt : a.toNat < b.toNat
        · rw [if_pos hlt]
          simp only [Nat.le_of_lt hlt, decide_true]
        · have hgt : b.toNat < a.toNat := by omega
          rw [if_neg hlt, if_pos hgt]
          simp only [Nat.not_le.2 hgt, decide_false]

theorem linear_nameLe : Linear nameLe :=
  nameLe_eq ▸ linear_byteLe.lex

/-- The order of a depth-first visit: by the first names that differ, in byte order. -/
def namesLe : List Name → List Name → Bool :=
  lexLe nameLe

theorem linear_namesLe : Linear namesLe :=
  linear_nameLe.lex

end FileSystem
end Folio
