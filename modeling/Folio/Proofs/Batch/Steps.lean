import Folio.Proofs.Batch.Run
import Folio.Proofs.Batch.Walk

/-!
# Folio.Proofs.Batch.Steps

A run as a sequence of steps.

* `Progress`, `Batch.Runs`, `Batch.Ends`: the states of a run, how it goes on, and how it ends; `processAll_cases` says
  that these are all.
* `processAll_file`, `processAll_failed`, `processAll_none`: a run step by step.
-/

namespace Folio

open Folio.Path FileSystem

/-- A state of a run. -/
structure Progress where
  written : Written
  pending : List Pending
  fs : FileSystem

namespace Progress

/-- What comes next, as the run finds it. -/
def next (s : Progress) : Except IoError (Option (Pending × List Pending)) :=
  nextFile s.fs (s.fs.entries.length + 2) s.pending

/-- The state in which a run begins. -/
def start (input : Path) (fs : FileSystem) : Progress :=
  ⟨[], [⟨input, []⟩], fs⟩

end Progress

namespace Batch

/-- The work on some files, one after the other. -/
inductive Runs (b : Batch) : Nat → Progress → Progress → Prop where
  | refl {s : Progress} : Runs b 0 s s
  | file {k : Nat} {s s' : Progress} {p : Pending} {rest : List Pending} {written : Written} {fs : FileSystem}
      (hnext : s.next = .ok (some (p, rest))) (hfile : b.Handles s.written p s.fs (.ok written) fs)
      (hmore : Runs b k ⟨written, rest, fs⟩ s') : Runs b (k + 1) s s'

/-- How a run ends: everything is done, or the visit fails, or the work on a file. -/
inductive Ends (b : Batch) (s : Progress) : Except Error Written → FileSystem → Prop where
  | finished (hnext : s.next = .ok none) : Ends b s (.ok s.written) s.fs
  | unvisited {cause : IoError} (hnext : s.next = .error cause) : Ends b s (.error (.io cause)) s.fs
  | failed {p : Pending} {rest : List Pending} {e : Error} {fs : FileSystem} (hnext : s.next = .ok (some (p, rest)))
      (hfile : b.Handles s.written p s.fs (.error e) fs) : Ends b s (.error e) fs

theorem Ends.of_ok {b : Batch} {s : Progress} {written : Written} {fs : FileSystem} (h : b.Ends s (.ok written) fs) :
    s.next = .ok none ∧ written = s.written ∧ fs = s.fs := by
  cases h with
  | finished hnext => exact ⟨hnext, rfl, rfl⟩

/-- A run goes on file by file until it ends, or there are more files than it is allowed. It reports the pages that it
has written. -/
theorem processAll_cases (b : Batch) (n : Nat) (written : Written) (pending : List Pending) (w : World) :
    let run := b.processAll n written pending w
    ∃ k s, b.Runs k ⟨written, pending, w.fs⟩ s ∧
      (k = n ∧ run.1 = .error (.io .nameTooLong) ∧ run.2.fs = s.fs ∨ b.Ends s run.1 run.2.fs) ∧
      ∃ made, s.written = made ++ written ∧ run.2.generated = w.generated ++ made.reverse.map Prod.fst := by
  -- On the number of files that the run may still handle. It is stopped for it only after `k = n` of them.
  induction n generalizing written pending w with
  | zero => exact ⟨0, _, .refl, .inl ⟨rfl, rfl, rfl⟩, [], rfl, (List.append_nil _).symm⟩
  | succ n ih =>
    dsimp only
    rw [processAll, Action.ask_bind]
    cases hnext : nextFile w.fs (w.fs.entries.length + 2) pending with
    | error cause => exact ⟨0, _, .refl, .inr (.unvisited hnext), [], rfl, (List.append_nil _).symm⟩
    | ok next =>
      cases next with
      | none => exact ⟨0, _, .refl, .inr (.finished hnext), [], rfl, (List.append_nil _).symm⟩
      | some found =>
        obtain ⟨p, rest⟩ := found
        have hfile := b.processFile_handles written p w
        have hpages := b.processFile_generated written p w
        dsimp only
        rw [Action.bind_eq]
        cases hrun : b.processFile written p w with
        | mk result w₁ =>
          rw [hrun] at hfile hpages
          cases result with
          | error e => exact ⟨0, _, .refl, .inr (.failed hnext hfile), [], rfl, hpages.trans (List.append_nil _).symm⟩
          | ok written₁ =>
            obtain ⟨made, rfl, hmade⟩ := hpages
            obtain ⟨k, s, hruns, hend, more, hwritten, hmore⟩ := ih (made ++ written) rest w₁
            refine ⟨k + 1, s, .file hnext hfile hruns, hend.imp_left fun hk => ⟨by rw [hk.1], hk.2⟩, more ++ made,
              ?_, ?_⟩
            · rw [hwritten, List.append_assoc]
            · dsimp only at hmore ⊢
              rw [hmore, hmade, List.reverse_append, List.map_append, List.append_assoc]

theorem processAll_file {b : Batch} {n : Nat} {written written₁ : Written} {pending rest : List Pending} {p : Pending}
    {w w₁ : World} (hnext : nextFile w.fs (w.fs.entries.length + 2) pending = .ok (some (p, rest)))
    (hfile : b.processFile written p w = (.ok written₁, w₁)) :
    b.processAll (n + 1) written pending w = b.processAll n written₁ rest w₁ := by
  rw [processAll, Action.ask_bind, hnext]
  dsimp only
  rw [Action.bind_of_ok _ hfile]

theorem processAll_failed {b : Batch} {n : Nat} {written : Written} {pending rest : List Pending} {p : Pending}
    {e : Error} {w w₁ : World} (hnext : nextFile w.fs (w.fs.entries.length + 2) pending = .ok (some (p, rest)))
    (hfile : b.processFile written p w = (.error e, w₁)) :
    b.processAll (n + 1) written pending w = (.error e, w₁) := by
  rw [processAll, Action.ask_bind, hnext]
  dsimp only
  rw [Action.bind_eq, hfile]

theorem processAll_none {b : Batch} {n : Nat} {written : Written} {pending : List Pending} {w : World}
    (hnext : nextFile w.fs (w.fs.entries.length + 2) pending = .ok none) :
    b.processAll (n + 1) written pending w = (.ok written, w) := by
  rw [processAll, Action.ask_bind, hnext]
  rfl

/-- What is pending stands where something was pending before. -/
theorem Runs.pending_below {b : Batch} {k : Nat} {s s' : Progress} (h : b.Runs k s s') :
    ∀ q ∈ s'.pending, ∃ r ∈ s.pending, r.names <+: q.names := by
  induction h with
  | refl => exact fun q hq => ⟨q, hq, List.prefix_rfl⟩
  | file hnext _ _ ih =>
    intro q hq
    obtain ⟨r, hr, hbelow⟩ := ih q hq
    obtain ⟨r', hr', hbelow'⟩ := nextFile_below hnext r (List.mem_cons_of_mem _ hr)
    exact ⟨r', hr', hbelow'.trans hbelow⟩

end Batch

end Folio
