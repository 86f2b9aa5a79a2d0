import Mathlib
import Folio.CommandLine
import Folio.Config.Basic
import Folio.Proofs.Action
import Folio.Proofs.Parameters

/-!
# Folio.Proofs.Precedence

Where the parameters of a page come from.

* `parseReplacement?_eq_some`: an argument is cut at its first equals sign.
* `get?_layers`, `names_layers`: sets that are put over each other. The uppermost value of a name counts, and the names
  stand in the order of the lowest layer first.
* `produce_layers`: the parameters of a page are those that every page has, with those of the project over them, and
  those of the command line over both.
-/

namespace Folio

/-! ### Arguments -/

theorem Text.splitOnce_eq_some {c : Char} {text before after : List Char} :
    splitOnce c text = some (before, after) ↔ text = before ++ c :: after ∧ c ∉ before := by
  induction text generalizing before with
  | nil => simp [splitOnce]
  | cons d cs ih =>
    rw [splitOnce]
    -- The first separator ends the part before it, so that this part is empty just where the text begins with one.
    by_cases hd : d = c
    · rw [if_pos hd, hd]
      cases before with
      | nil => simp
      | cons e before =>
        constructor
        · rintro ⟨⟩
        · rintro ⟨heq, hnot⟩
          cases heq
          exact absurd List.mem_cons_self hnot
    · rw [if_neg hd]
      cases before with
      | nil =>
        constructor
        · intro h
          split at h <;> cases h
        · rintro ⟨heq, -⟩
          cases heq
          exact absurd rfl hd
      | cons e before =>
        rw [List.cons_append, List.cons.injEq, List.mem_cons, not_or]
        constructor
        · intro h
          split at h
          · cases h
          · next hsplit =>
            cases h
            obtain ⟨rfl, hnot⟩ := ih.1 hsplit
            exact ⟨⟨rfl, rfl⟩, Ne.symm hd, hnot⟩
        · rintro ⟨⟨rfl, heq⟩, -, hnot⟩
          rw [ih.2 ⟨heq, hnot⟩]

/-- An argument gives a name and a value exactly when it has an equals sign that is not its first character. -/
theorem parseReplacement?_eq_some {text : String} {p : String × String} :
    parseReplacement? text = some p ↔ text = p.1 ++ "=" ++ p.2 ∧ '=' ∉ p.1.toList ∧ p.1 ≠ "" := by
  obtain ⟨name, value⟩ := p
  have htext : text = name ++ "=" ++ value ↔ text.toList = name.toList ++ '=' :: value.toList := by
    rw [← String.toList_inj, String.toList_append, String.toList_append, List.append_assoc]
    rfl
  rw [parseReplacement?, htext, ← and_assoc, ← Text.splitOnce_eq_some]
  constructor
  · intro h
    split at h
    · next c before after hsplit =>
      cases h
      rw [String.toList_ofList, String.toList_ofList]
      refine ⟨hsplit, fun hempty => ?_⟩
      have hchars := congrArg String.toList hempty
      rw [String.toList_ofList] at hchars
      cases hchars
    · cases h
  · rintro ⟨hsplit, hname⟩
    cases hchars : name.toList with
    | nil => exact absurd (String.toList_eq_nil_iff.1 hchars) hname
    | cons c cs =>
      rw [hsplit, hchars]
      dsimp only
      rw [← hchars, String.ofList_toList, String.ofList_toList]

/-! ### Layers -/

theorem eraseDups_of_nodup {names : List String} (h : names.Nodup) : names.eraseDups = names := by
  induction names with
  | nil => rfl
  | cons name names ih =>
    obtain ⟨hnot, hnames⟩ := List.nodup_cons.1 h
    have hothers : names.filter (fun other => !other == name) = names := by
      refine List.filter_eq_self.2 fun other hother => ?_
      rw [Bool.not_eq_true', beq_eq_false_iff_ne]
      exact fun heq => hnot (heq ▸ hother)
    rw [List.eraseDups_cons, hothers, ih hnames]

namespace ParameterSet

/-- A set over pairs that are there first, and further pairs over both. -/
def layers (ground : List (String × String)) (set : ParameterSet) (top : List (String × String)) : ParameterSet :=
  (ofPairs ground).insertAll (set.insertAll (ofPairs top).pairs).pairs

/-- The names of another set that are new come in their order. -/
theorem names_insertAll_pairs (set other : ParameterSet) :
    (set.insertAll other.pairs).names = set.names ++ other.names.filter fun name => name ∉ set.names := by
  rw [names_insertAll, eraseDups_of_nodup (other.nodup.filter _)]
  rfl

theorem get?_insertAll_pairs (set other : ParameterSet) (name : String) :
    (set.insertAll other.pairs).get? name = (other.get? name).or (set.get? name) := by
  rw [get?_insertAll, lookup_reverse other.nodup]
  rfl

variable {ground : List (String × String)}

theorem get?_layers (hground : (ground.map Prod.fst).Nodup) (set : ParameterSet) (top : List (String × String))
    (name : String) :
    (layers ground set top).get? name = (top.reverse.lookup name).or ((set.get? name).or (ground.lookup name)) := by
  rw [layers, get?_insertAll_pairs, get?_insertAll_pairs, get?_ofPairs, get?_ofPairs, lookup_reverse hground,
    Option.or_assoc]

theorem names_layers (hground : (ground.map Prod.fst).Nodup) (set : ParameterSet) (top : List (String × String)) :
    (layers ground set top).names =
      ground.map Prod.fst ++ (set.names.filter fun name => name ∉ ground.map Prod.fst) ++
        (top.map Prod.fst).eraseDups.filter fun name => name ∉ ground.map Prod.fst ∧ name ∉ set.names := by
  rw [layers, names_insertAll_pairs, names_insertAll_pairs, names_ofPairs, names_ofPairs, eraseDups_of_nodup hground,
    List.filter_append, List.filter_filter, List.append_assoc]
  simp only [Bool.decide_and]

end ParameterSet

/-! ### Pages -/

namespace Content

theorem nodup_generated (settings : Settings) (source : Path) (title page text : String) :
    ((generated settings source title page text).map Prod.fst).Nodup := by
  cases hincluded : settings.includeSource <;> simp [generated, hincluded] <;> decide

theorem result_produce_of_title {kind : DocumentKind} {source : Path} {fs : FileSystem} {text name : String}
    (htext : fs.readText source = .ok text) (htitle : title kind source (documentEvents kind source text) = .ok name)
    (settings : Settings) :
    (produce kind settings source).result fs = .ok ⟨documentTag, (ParameterSet.ofPairs (generated settings source name
      (fragment settings.format (documentEvents kind source text)) text)).insertAll settings.replacements.pairs⟩ := by
  rw [result_produce, htext]
  dsimp only
  rw [ofText, htitle]

theorem of_produce_ok {kind : DocumentKind} {settings : Settings} {source : Path} {content : Content} {w w' : World}
    (h : produce kind settings source w = (.ok content, w')) :
    ∃ text title, w.fs.readText source = .ok text ∧
      Content.title kind source (documentEvents kind source text) = .ok title ∧
      content.parameters = (ParameterSet.ofPairs (generated settings source title
        (fragment settings.format (documentEvents kind source text)) text)).insertAll settings.replacements.pairs := by
  have hresult := (observes_produce kind settings source w).2
  rw [h, result_produce] at hresult
  cases htext : w.fs.readText source with
  | error e =>
    rw [htext] at hresult
    cases hresult
  | ok text =>
    rw [htext] at hresult
    dsimp only at hresult
    rw [ofText] at hresult
    cases htitle : Content.title kind source (documentEvents kind source text) with
    | error e =>
      rw [htitle] at hresult
      cases hresult
    | ok title =>
      rw [htitle] at hresult
      cases hresult
      exact ⟨text, title, rfl, htitle, rfl⟩

end Content

/-- Each name has the value of its last argument, or else the one of the project, or else the one that every page has.
The names that every page has come first, then the others of the project, and then the others of the arguments. -/
theorem produce_layers {texts : List String} {given : RenderArguments}
    (hgiven : List.Forall₂ (fun text p => parseReplacement? text = some p) texts given.replacements)
    (config : ProjectConfig) {settings : Settings}
    (hsettings : (∃ output, settings = (config.completeDocument { given.choices with output }).settings) ∨
      ∃ outputDir scriptExtensions,
        settings = (config.completeDirectory { given.choices with outputDir, scriptExtensions }).settings)
    {kind : DocumentKind} {source : Path} {content : Content} {w w' : World}
    (h : Content.produce kind settings source w = (.ok content, w')) :
    ∃ text title, w.fs.readText source = .ok text ∧
      Content.title kind source (Content.documentEvents kind source text) = .ok title ∧
      let ground := [("page-title", title), ("page-source", Content.fileName source),
          ("document", fragment settings.format (Content.documentEvents kind source text)), ("tooltips", "")] ++
        if given.includeChoice.getD config.includeSource then [("source", text)] else []
      let arguments := given.replacements
      List.Forall₂ (fun text p => text = p.1 ++ "=" ++ p.2 ∧ '=' ∉ p.1.toList ∧ p.1 ≠ "") texts arguments ∧
      content.parameters.names.Nodup ∧
      (∀ name, content.parameters.get? name =
        (arguments.reverse.lookup name).or ((config.replacements.get? name).or (ground.lookup name))) ∧
      content.parameters.names =
        ground.map Prod.fst ++
        (config.replacements.names.filter fun name => name ∉ ground.map Prod.fst) ++
        ((arguments.map Prod.fst).eraseDups.filter fun name =>
          name ∉ ground.map Prod.fst ∧ name ∉ config.replacements.names) ∧
      ∀ name ∈ ground.map Prod.fst, (content.parameters.get? name).isSome = true := by
  -- A single document and a directory give the same settings.
  have hsame : settings = (config.complete given.choices).settings := by
    obtain ⟨output, rfl⟩ | ⟨outputDir, scriptExtensions, rfl⟩ := hsettings <;> rfl
  obtain ⟨text, title, htext, htitle, hparameters⟩ := Content.of_produce_ok h
  subst hsame
  refine ⟨text, title, htext, htitle, ?_⟩
  intro ground arguments
  have hground : (ground.map Prod.fst).Nodup :=
    Content.nodup_generated (config.complete given.choices).settings source title _ text
  have hlayers : content.parameters = ParameterSet.layers ground config.replacements arguments := hparameters
  have hvalue : ∀ name, content.parameters.get? name =
      (arguments.reverse.lookup name).or ((config.replacements.get? name).or (ground.lookup name)) := by
    intro name
    rw [hlayers, ParameterSet.get?_layers hground]
  refine ⟨hgiven.imp fun _ _ => parseReplacement?_eq_some.1, content.parameters.nodup, hvalue, ?_, ?_⟩
  · rw [hlayers, ParameterSet.names_layers hground]
  · intro name hname
    obtain ⟨p, hp, rfl⟩ := List.mem_map.1 hname
    have hthere : (ground.lookup p.1).isSome = true := by
      rw [List.lookup_isSome_iff]
      exact ⟨p, hp, beq_self_eq_true p.1⟩
    rw [hvalue, Option.isSome_or, Option.isSome_or, hthere, Bool.or_true, Bool.or_true]

namespace Layered

/-- A script, with names that a project and the arguments both give, and one that is given twice. -/
def files : FileSystem where
  entries := [([Text.encode "w"], .directory), ([Text.encode "w", Text.encode "a.rs"], .file (Text.encode "x"))]
  current := [Text.encode "w"]

def config : ProjectConfig :=
  { ProjectConfig.default with
    replacements := ParameterSet.ofPairs [("project", "folio"), ("source", "hidden"), ("version", "1")] }

def arguments : RenderArguments :=
  { replacements := [("lang", "de"), ("version", "2=beta"), ("page-title", "Start"), ("lang", "en")] }

theorem produce_layered :
    List.Forall₂ (fun text p => parseReplacement? text = some p)
      ["lang=de", "version=2=beta", "page-title=Start", "lang=en"] arguments.replacements ∧
    ∃ content w', Content.produce .script (config.completeDocument { arguments.choices with output := none }).settings
        (Path.ofString "a.rs") ⟨files, []⟩ = (.ok content, w') ∧
      content.parameters.names =
        ["page-title", "page-source", "document", "tooltips", "project", "source", "version", "lang"] ∧
      content.parameters.get? "page-title" = some "Start" ∧ content.parameters.get? "page-source" = some "a.rs" ∧
      content.parameters.get? "source" = some "hidden" ∧ content.parameters.get? "version" = some "2=beta" ∧
      content.parameters.get? "lang" = some "en" := by
  have haccepted : List.Forall₂ (fun text p => parseReplacement? text = some p)
      ["lang=de", "version=2=beta", "page-title=Start", "lang=en"] arguments.replacements := by
    refine .cons ?_ (.cons ?_ (.cons ?_ (.cons ?_ .nil))) <;> decide
  have hread : files.readText (Path.ofString "a.rs") = .ok "x" := by cbv
  have htitle : Content.title .script (Path.ofString "a.rs")
      (Content.documentEvents .script (Path.ofString "a.rs") "x") = .ok "a" := by decide
  obtain ⟨content, w', hproduce⟩ : ∃ content w', Content.produce .script
      (config.completeDocument { arguments.choices with output := none }).settings (Path.ofString "a.rs") ⟨files, []⟩ =
        (.ok content, w') :=
    ⟨_, (observes_produce _ _ _).exists_eq _ (Content.result_produce_of_title hread htitle _)⟩
  obtain ⟨text, title, htext, htitle', -, -, hvalues, hnames, -⟩ :=
    produce_layers haccepted config (.inl ⟨none, rfl⟩) hproduce
  cases hread.symm.trans htext
  cases htitle.symm.trans htitle'
  refine ⟨haccepted, content, w', hproduce, hnames.trans ?_, ?_⟩
  · decide
  · simp only [hvalues]
    decide

end Layered
end Folio
