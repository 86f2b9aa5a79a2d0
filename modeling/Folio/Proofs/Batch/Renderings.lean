import Folio.Proofs.Renderings
import Folio.Proofs.Batch.Progress

/-!
# Folio.Proofs.Batch.Renderings

What is rendered in a run over a directory.

* `Batch.Takes`, `Batch.Chosen`: the documents that are rendered, each with a place of its own.
* `processFile_rendersAfter`, `processAll_rendersAfter`: the work on one file, and on all of them.
* `processDirectory_rendered`: a run renders documents that are not left out; if it succeeds, its pages are theirs.
* `processDirectory_eq_of_plain`: without a template for the engine, neither the engine nor the layout roots count.
-/

namespace Folio

open Folio.Path FileSystem

namespace Batch

/-- How the pages of a run are made. -/
def method (b : Batch) : Method :=
  Method.ofChoices b.renderer b.options.toChoices

/-- A rendering of a document of the run, with these names below the directory, for its own page. -/
structure Takes (b : Batch) (input : Path) (names : List Name) (r : Rendering) : Prop where
  source : r.source = input.below names
  target : r.target = b.pageOf names
  kept : b.skips ⟨unsplit names⟩ = false
  kind : b.kind? r.source = some r.kind

/-- Renderings of documents of the run, each for a page that is not written yet. -/
structure Chosen (b : Batch) (input : Path) (written : Written) (rs : List Rendering) : Prop where
  takes : ∀ r ∈ rs, ∃ names, b.Takes input names r
  fresh : ∀ r ∈ rs, r.target.components ∉ written.map fun p => p.1.components
  apart : (rs.map fun r => r.target.components).Nodup

/-- The pages that have been written after some others. -/
def writtenAfter (written : Written) (rs : List Rendering) : Written :=
  (rs.map fun r => (r.target, r.source)).reverse ++ written

variable {b : Batch} {input : Path} {written : Written}

theorem chosen_nil (b : Batch) (input : Path) (written : Written) : b.Chosen input written [] :=
  ⟨fun _ h => absurd h List.not_mem_nil, fun _ h => absurd h List.not_mem_nil, List.nodup_nil⟩

theorem chosen_singleton {names : List Name} {r : Rendering} (h : b.Takes input names r)
    (hnew : written.source? r.target = none) : b.Chosen input written [r] where
  takes _ hs := ⟨names, List.mem_singleton.1 hs ▸ h⟩
  fresh _ hs := List.mem_singleton.1 hs ▸ source?_eq_none.1 hnew
  apart := List.nodup_singleton _

/-- The page of a later rendering is none of those that have been written by then. -/
theorem Chosen.append {rs rs' : List Rendering} (h : b.Chosen input written rs)
    (h' : b.Chosen input (writtenAfter written rs) rs') : b.Chosen input written (rs ++ rs') where
  takes r hr := (List.mem_append.1 hr).elim (h.takes r) (h'.takes r)
  fresh r hr := by
    obtain hr | hr := List.mem_append.1 hr
    · exact h.fresh r hr
    · have hfresh := h'.fresh r hr
      rw [writtenAfter, List.map_append, List.mem_append, not_or] at hfresh
      exact hfresh.2
  apart := by
    rw [List.map_append]
    refine h.apart.append h'.apart ?_
    intro components hmem hmem'
    obtain ⟨r, hr, rfl⟩ := List.mem_map.1 hmem
    obtain ⟨r', hr', heq⟩ := List.mem_map.1 hmem'
    have hfresh := h'.fresh r' hr'
    rw [writtenAfter, List.map_append, List.mem_append, not_or] at hfresh
    refine hfresh.1 (List.mem_map.2 ⟨(r.target, r.source), ?_, heq.symm⟩)
    exact List.mem_reverse.2 (List.mem_map.2 ⟨r, hr, rfl⟩)

theorem writtenAfter_append (written : Written) (rs rs' : List Rendering) :
    writtenAfter (writtenAfter written rs) rs' = writtenAfter written (rs ++ rs') := by
  simp [writtenAfter]

/-- Work that renders documents after some others, each of them once. What it has written are the pages of all. -/
def RendersAfter (b : Batch) (input : Path) (written : Written) (w : World) (run : Except Error Written × World) :
    Prop :=
  ∃ rs, b.method.Rendered w rs run ∧ b.Chosen input written rs ∧
    ∀ written', run.1 = .ok written' → written' = writtenAfter written rs

variable {w : World}

theorem rendersAfter_of_observes {a : Action Written} (ha : a.Observes) (haside : a.Reports Notice.IsAside)
    (hsame : ∀ written', (a w).1 = .ok written' → written' = written) : b.RendersAfter input written w (a w) :=
  ⟨[], Method.rendered_of_observes ha haside w, chosen_nil b input written, hsame⟩

theorem RendersAfter.bind {a : Action Written} {f : Written → Action Written}
    (h : b.RendersAfter input written w (a w))
    (hf : ∀ written' w', b.RendersAfter input written' w' (f written' w')) :
    b.RendersAfter input written w ((a >>= f) w) := by
  obtain ⟨rs, hrendered, hchosen, hwritten⟩ := h
  rw [Action.bind_eq]
  cases hrun : a w with
  | mk result w₁ =>
    rw [hrun] at hrendered hwritten
    cases result with
    | error e =>
      refine ⟨rs, ⟨hrendered.files, hrendered.reported⟩, hchosen, fun written' hresult => ?_⟩
      cases hresult
    | ok written₁ =>
      obtain rfl := hwritten written₁ rfl
      obtain ⟨rs', hrendered', hchosen', hwritten'⟩ := hf (writtenAfter written rs) w₁
      refine ⟨rs ++ rs', hrendered.append hrendered', hchosen.append hchosen', fun written' hresult => ?_⟩
      rw [← writtenAfter_append]
      exact hwritten' written' hresult

end Batch

/-! ### The work on files -/

variable {b : Batch} {input : Path}

/-- The work on a page consists of the renderings of its document, after the directories for it. It succeeds only if
there is one. -/
theorem writePage_rendered (b : Batch) (kind : DocumentKind) (source target : Path) (w : World) :
    ∃ rs, b.method.Rendered w rs (b.writePage kind source target w) ∧
      (rs = [] ∨ ∃ content fs, rs = [⟨kind, source, target, content, fs⟩]) ∧
      ((b.writePage kind source target w).1 = .ok () → rs ≠ []) := by
  have hprepared : Method.Prepared w.fs (w.fs.prepare target).1 := .step target .refl
  rw [Batch.writePage_eq]
  cases hprepare : w.fs.prepare target with
  | mk fs made =>
    rw [hprepare] at hprepared
    cases made with
    | error cause =>
      refine ⟨[], ⟨.done hprepared, World.adds_nil_of_extends (.refl _ w.notices)⟩, .inl rfl, fun hresult => ?_⟩
      cases hresult
    | ok done =>
      obtain ⟨hrendered, hone⟩ := page_rendered b.renderer b.options.toChoices kind source target
        (Action.observes_report (.generated target)) (Action.reports_report ⟨rfl, rfl⟩) { w with fs }
      refine ⟨_, hrendered.of_prepared hprepared, ?_, ?_⟩
      · obtain hnone | ⟨content, hone⟩ := b.method.renderings_cases kind source target fs
        · exact .inl hnone
        · exact .inr ⟨content, fs, hone⟩
      · intro hresult
        obtain ⟨content, hsingle⟩ := hone () hresult
        rw [hsingle]
        exact List.cons_ne_nil _ _

theorem rendersAfter_fail (written : Written) (e : Error) (w : World) :
    b.RendersAfter input written w ((Action.fail e : Action Written) w) := by
  refine Batch.rendersAfter_of_observes (Action.observes_fail e) (Action.reports_fail e) fun written' hresult => ?_
  cases hresult

theorem rendersAfter_report {written : Written} {n : Notice} (hn : n.IsAside) (w : World) :
    b.RendersAfter input written w ((do
      Action.report n
      return written : Action Written) w) := by
  refine Batch.rendersAfter_of_observes
    ((Action.observes_report n).bind fun _ => Action.observes_ofExcept (.ok written))
    ((Action.reports_report hn).bind fun _ => Action.reports_ofExcept (.ok written)) fun written' hresult => ?_
  exact (Except.ok.inj hresult).symm

theorem processFile_rendersAfter (written : Written) {p : Pending} (hp : p.path = input.below p.names) (w : World) :
    b.RendersAfter input written w (b.processFile written p w) := by
  rw [Batch.processFile]
  cases hskip : b.skips p.relative with
  | true =>
    exact rendersAfter_report ⟨rfl, rfl⟩ w
  | false =>
    rw [if_neg Bool.false_ne_true]
    cases hkind : b.kind? p.path with
    | none => exact rendersAfter_report ⟨rfl, rfl⟩ w
    | some kind =>
      dsimp only
      cases hnew : written.source? (b.target p.relative) with
      | some first => exact rendersAfter_fail written _ w
      | none =>
        obtain ⟨rs, hrendered, hsingle, hone⟩ := writePage_rendered b kind p.path (b.target p.relative) w
        refine ⟨rs, hrendered.bind_observes fun _ => ⟨Action.observes_ofExcept (.ok _), Action.reports_ofExcept _⟩,
          ?_, ?_⟩
        · obtain rfl | ⟨content, fs, rfl⟩ := hsingle
          · exact Batch.chosen_nil b input written
          · exact Batch.chosen_singleton ⟨hp, rfl, hskip, hkind⟩ hnew
        · intro written' hresult
          obtain ⟨done, w₁, hpage, hreturn⟩ := Action.of_bind_ok (Prod.ext hresult rfl)
          obtain rfl | ⟨content, fs, rfl⟩ := hsingle
          · exact absurd rfl (hone (congrArg Prod.fst hpage))
          · cases hreturn
            rfl

/-- What is pending is known by the names that lead to it. -/
theorem nextFile_paths {fs : FileSystem} {n : Nat} {pending rest : List Pending} {p : Pending}
    (h : nextFile fs n pending = .ok (some (p, rest))) (hpending : ∀ q ∈ pending, q.path = input.below q.names) :
    ∀ q ∈ p :: rest, q.path = input.below q.names := by
  fun_induction nextFile fs n pending with
  | case4 n p ps l bytes hkind =>
    cases h
    exact hpending
  | case6 n p ps l hkind hcheck ih =>
    refine ih h fun q hq => ?_
    obtain hq | hq := List.mem_append.1 hq
    · obtain ⟨name, -, rfl⟩ := List.mem_map.1 hq
      rw [below_concat, ← hpending p List.mem_cons_self]
    · exact hpending q (List.mem_cons_of_mem p hq)
  | case7 n p ps l target hkind ih => exact ih h fun q hq => hpending q (List.mem_cons_of_mem p hq)
  | _ => cases h

/-- The work on all files renders documents one after the other, each of them once. -/
theorem processAll_rendersAfter (n : Nat) (written : Written) {pending : List Pending}
    (hpending : ∀ p ∈ pending, p.path = input.below p.names) (w : World) :
    b.RendersAfter input written w (b.processAll n written pending w) := by
  induction n generalizing written pending w with
  | zero => exact rendersAfter_fail written _ w
  | succ n ih =>
    rw [Batch.processAll, Action.ask_bind]
    cases hnext : nextFile w.fs (w.fs.entries.length + 2) pending with
    | error cause => exact rendersAfter_fail written _ w
    | ok next =>
      cases next with
      | none =>
        refine Batch.rendersAfter_of_observes (Action.observes_ofExcept (.ok written)) (Action.reports_ofExcept _)
          fun written' hresult => ?_
        exact (Except.ok.inj hresult).symm
      | some found =>
        obtain ⟨p, rest⟩ := found
        have hpaths := nextFile_paths hnext hpending
        refine (processFile_rendersAfter written (hpaths p List.mem_cons_self) w).bind fun written' w' => ?_
        exact ih written' (fun q hq => hpaths q (List.mem_cons_of_mem p hq)) w'

/-- A run over a directory ends before anything is rendered, or it renders documents that are not left out, each of
them once. If it succeeds, its pages are theirs. -/
theorem processDirectory_rendered (renderer : Renderer) (input : Path) (options : DirectoryOptions) (w : World) :
    let run := processDirectory renderer input options w
    let m := Method.ofChoices renderer options.toChoices
    (m.Rendered w [] run ∧ ∃ e, run.1 = .error e) ∨
      ∃ ignored, (IgnoreSet.load (input.join IgnoreSet.fileName)).result w.fs = .ok ignored ∧
        ∃ rs, m.Rendered w rs run ∧ Batch.Chosen ⟨renderer, options, ignored⟩ input [] rs ∧
          ∀ pages, run.1 = .ok pages → pages = rs.map Rendering.target := by
  dsimp only
  cases hdir : w.fs.isDirectory input with
  | false =>
    rw [processDirectory, Action.ask_bind, hdir, if_neg Bool.false_ne_true]
    exact .inl ⟨Method.rendered_of_observes (Action.observes_fail _) (Action.reports_fail _) w, _, rfl⟩
  | true =>
    have hobserves := observes_load (input.join IgnoreSet.fileName)
    have hfirst := Method.rendered_of_observes (m := Method.ofChoices renderer options.toChoices) hobserves
      ((reports_load _).mono fun n hn => hn ▸ ⟨rfl, rfl⟩) w
    have hresult := (hobserves w).2
    cases hload : IgnoreSet.load (input.join IgnoreSet.fileName) w with
    | mk result w₁ =>
      rw [hload] at hfirst hresult
      cases result with
      | error e =>
        rw [processDirectory, Action.ask_bind, hdir, if_pos rfl, Action.bind_eq, hload]
        exact .inl ⟨⟨hfirst.files, hfirst.reported⟩, e, rfl⟩
      | ok ignored =>
        -- The run goes on from the directory itself, which no name leads to yet.
        have hstart : ∀ p ∈ [(⟨input, []⟩ : Pending)], p.path = input.below p.names := by
          intro p hp
          rw [List.mem_singleton.1 hp]
          rfl
        obtain ⟨rs, hrendered, hchosen, hwritten⟩ := @processAll_rendersAfter ⟨renderer, options, ignored⟩ input
          maxFiles [] _ hstart w₁
        cases hall : Batch.processAll ⟨renderer, options, ignored⟩ maxFiles [] [⟨input, []⟩] w₁ with
        | mk result w' =>
          rw [hall] at hrendered hwritten
          rw [processDirectory_of_load hdir hload hall]
          have hboth := hfirst.append hrendered
          refine .inr ⟨ignored, hresult.symm, rs, ⟨?_, hboth.reported⟩, hchosen, fun pages hpages => ?_⟩
          · rw [failure?_map]
            exact hboth.files
          · cases result with
            | error e => cases hpages
            | ok written =>
              cases hpages
              rw [hwritten written rfl, Batch.writtenAfter, List.append_nil]
              dsimp only
              rw [List.reverse_reverse, List.map_map]
              rfl

/-! ### Without the engine -/

namespace Batch

/-- The same run with another engine and other layout roots. -/
def withEngine (b : Batch) (renderer : Renderer) (layoutRoots : List Path) : Batch :=
  { b with renderer, options := { b.options with layoutRoots } }

variable {b : Batch}

theorem writePage_eq_of_plain (h : ∀ path, Strategy.choose b.options.template ≠ .engine path) (renderer : Renderer)
    (layoutRoots : List Path) (kind : DocumentKind) (source target : Path) :
    b.writePage kind source target = (b.withEngine renderer layoutRoots).writePage kind source target := by
  have hrender := render_eq_of_plain h b.renderer renderer b.options.layoutRoots layoutRoots
  unfold writePage renderToFile
  simp only [hrender]
  rfl

theorem processFile_eq_of_plain (h : ∀ path, Strategy.choose b.options.template ≠ .engine path) (renderer : Renderer)
    (layoutRoots : List Path) (written : Written) (p : Pending) :
    b.processFile written p = (b.withEngine renderer layoutRoots).processFile written p := by
  unfold processFile
  simp only [writePage_eq_of_plain h renderer layoutRoots]
  rfl

theorem processAll_eq_of_plain (h : ∀ path, Strategy.choose b.options.template ≠ .engine path) (renderer : Renderer)
    (layoutRoots : List Path) (n : Nat) (written : Written) (pending : List Pending) :
    b.processAll n written pending = (b.withEngine renderer layoutRoots).processAll n written pending := by
  induction n generalizing written pending with
  | zero => rfl
  | succ n ih =>
    rw [processAll, processAll]
    simp only [processFile_eq_of_plain h renderer layoutRoots, ih]

end Batch

/-- Without a template for the engine, neither the engine nor the layout roots count for a run. -/
theorem processDirectory_eq_of_plain {options : DirectoryOptions}
    (h : ∀ path, Strategy.choose options.template ≠ .engine path) (renderer renderer' : Renderer)
    (layoutRoots : List Path) (input : Path) :
    processDirectory renderer input options = processDirectory renderer' input { options with layoutRoots } := by
  unfold processDirectory
  have hall := fun ignored => @Batch.processAll_eq_of_plain ⟨renderer, options, ignored⟩ h renderer' layoutRoots
  simp only [hall]
  rfl

end Folio
