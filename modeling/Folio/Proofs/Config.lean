import Folio.Config.Load
import Folio.Proofs.Action

/-!
# Folio.Proofs.Config

The configuration that a project directory has.

* `FoundIn`: the configuration in the first file that there is, as it is written there.
* `result_load`, `foundIn_of_load`: what is loaded is that configuration, with its paths taken from the directory.
-/

namespace Folio
namespace ProjectConfig

/-- The first of some files that is there in a directory. -/
def firstFile? (fs : FileSystem) (dir : Path) (names : List String) : Option String :=
  names.find? fun name => fs.pathExists (dir.join (Path.ofString name))

/-- What the first configuration file in a directory says; the default where there is none. -/
def FoundIn (own : ProjectConfig) (fs : FileSystem) (dir : Path) : Prop :=
  match firstFile? fs dir fileNames with
  | none => own = default
  | some name => ∃ text, fs.readText (dir.join (Path.ofString name)) = .ok text ∧ parse text = .ok own

theorem observes_findText (dir : Path) (names : List String) : (findText dir names).Observes := by
  induction names with
  | nil => exact (Action.observes_report _).bind fun _ => Action.observes_ofExcept (.ok none)
  | cons name names ih =>
    refine (Action.observes_ask _).bind fun found => ?_
    cases found with
    | false => exact ih
    | true =>
      exact (Action.observes_report _).bind fun _ =>
        (Action.observes_readText _).bind fun text => Action.observes_ofExcept (.ok (some text))

/-- No file after the first one that is there is looked at. -/
theorem result_findText (dir : Path) (names : List String) (fs : FileSystem) :
    (findText dir names).result fs =
      match firstFile? fs dir names with
      | none => .ok none
      | some name =>
        match fs.readText (dir.join (Path.ofString name)) with
        | .error e => .error (.io e)
        | .ok text => .ok (some text) := by
  induction names with
  | nil => rfl
  | cons name names ih =>
    rw [firstFile?, List.find?_cons]
    cases hfound : fs.pathExists (dir.join (Path.ofString name)) with
    | false =>
      rw [Action.result, findText, Action.ask_bind, hfound]
      exact ih
    | true =>
      rw [Action.result, findText, Action.ask_bind, hfound, if_pos rfl, Action.bind_eq, Action.report]
      dsimp only
      rw [Action.bind_eq, Action.readText]
      dsimp only
      cases fs.readText (dir.join (Path.ofString name)) <;> rfl

theorem observes_afterText (dir : Path) (text : Option String) :
    (match text with
      | none => pure default
      | some text => do
        let config ← Action.ofExcept (parse text)
        return config.inDirectory dir : Action ProjectConfig).Observes := by
  cases text with
  | none => exact Action.observes_ofExcept (.ok default)
  | some text =>
    exact (Action.observes_ofExcept _).bind fun config => Action.observes_ofExcept (.ok (config.inDirectory dir))

theorem observes_load (dir : Path) : (load dir).Observes :=
  (observes_findText dir fileNames).bind (observes_afterText dir)

theorem result_load (dir : Path) (fs : FileSystem) :
    (load dir).result fs =
      match firstFile? fs dir fileNames with
      | none => .ok default
      | some name =>
        match fs.readText (dir.join (Path.ofString name)) with
        | .error e => .error (.io e)
        | .ok text => (parse text).map fun own => own.inDirectory dir := by
  refine ((observes_findText dir fileNames).result_bind (observes_afterText dir) fs).trans ?_
  rw [result_findText]
  cases firstFile? fs dir fileNames with
  | none => rfl
  | some name =>
    dsimp only
    cases fs.readText (dir.join (Path.ofString name)) with
    | error e => rfl
    | ok text =>
      dsimp only
      rw [Action.result, Action.bind_eq, Action.ofExcept]
      cases parse text <;> rfl

/-- What is loaded is what the first file says, with its paths taken from the directory. -/
theorem foundIn_of_load {dir : Path} {config : ProjectConfig} {fs : FileSystem}
    (h : (load dir).result fs = .ok config) :
    ∃ own : ProjectConfig, own.FoundIn fs dir ∧ config = own.inDirectory dir := by
  rw [result_load] at h
  cases hfirst : firstFile? fs dir fileNames with
  | none =>
    rw [hfirst] at h
    cases h
    exact ⟨default, by rw [FoundIn, hfirst], rfl⟩
  | some name =>
    rw [hfirst] at h
    dsimp only at h
    cases htext : fs.readText (dir.join (Path.ofString name)) with
    | error e =>
      rw [htext] at h
      cases h
    | ok text =>
      rw [htext] at h
      dsimp only at h
      cases hparse : parse text with
      | error e =>
        rw [hparse] at h
        cases h
      | ok own =>
        rw [hparse] at h
        cases h
        refine ⟨own, ?_, rfl⟩
        rw [FoundIn, hfirst]
        exact ⟨text, htext, hparse⟩

end ProjectConfig
end Folio
