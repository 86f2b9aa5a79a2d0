import Folio.Proofs.Batch.Exact
import Folio.Proofs.Batch.Renderings

/-!
# Folio.Proofs.Batch.Ignored

The ignore file of a directory.

* `IgnoreSet.Lists`: the patterns that an ignore file lists, one on each line.
* `exists_of_compileAll`, `not_matches_of_ofText`: an ignore file that can be read puts all its patterns in force.
* `processDirectory_ignores`: a run renders no document whose path one of them matches.
* `Unreadable`: an ignore file that is no text counts for nothing.
-/

namespace Folio

open Folio.Path FileSystem

namespace IgnoreSet

/-- The patterns in an ignore file: the lines, without the blanks around them, that are not empty and no comments. -/
def Lists (text pattern : String) : Prop :=
  ∃ line ∈ Text.lines text.toList, Text.trim line ≠ [] ∧ (Text.trim line).head? ≠ some '#' ∧
    pattern = String.ofList (Text.trim line)

theorem isPattern_iff {line : List Char} : isPattern line = true ↔ line ≠ [] ∧ line.head? ≠ some '#' := by
  cases line <;> simp [isPattern]

theorem mem_patterns {text pattern : String} : pattern ∈ patterns text ↔ Lists text pattern := by
  simp only [patterns, Lists, List.mem_map, List.mem_filter, isPattern_iff]
  constructor
  · rintro ⟨_, ⟨⟨line, hline, rfl⟩, hne, hhead⟩, rfl⟩
    exact ⟨line, hline, hne, hhead, rfl⟩
  · rintro ⟨line, hline, hne, hhead, rfl⟩
    exact ⟨_, ⟨⟨line, hline, rfl⟩, hne, hhead⟩, rfl⟩

theorem parse_of_compile {pattern : String} {glob : Glob} (h : compile pattern = .ok glob) :
    Glob.parse pattern = .ok glob := by
  rw [compile] at h
  split at h
  · next heq =>
    cases h
    exact heq
  · cases h

theorem of_compileAll_cons {pattern : String} {patterns : List String} {globs : List Glob}
    (h : compileAll (pattern :: patterns) = .ok globs) :
    ∃ glob rest, Glob.parse pattern = .ok glob ∧ compileAll patterns = .ok rest ∧ globs = glob :: rest := by
  rw [compileAll] at h
  split at h
  · cases h
  · next glob hfirst =>
    split at h
    · cases h
    · next rest hrest =>
      cases h
      exact ⟨glob, rest, parse_of_compile hfirst, hrest, rfl⟩

theorem exists_of_compileAll {patterns : List String} {globs : List Glob} (h : compileAll patterns = .ok globs) :
    ∀ pattern ∈ patterns, ∃ glob ∈ globs, Glob.parse pattern = .ok glob := by
  induction patterns generalizing globs with
  | nil => exact fun pattern hmem => absurd hmem List.not_mem_nil
  | cons first patterns ih =>
    obtain ⟨glob, rest, hfirst, hrest, rfl⟩ := of_compileAll_cons h
    intro pattern hmem
    obtain rfl | hmem := List.mem_cons.1 hmem
    · exact ⟨glob, List.mem_cons_self, hfirst⟩
    · obtain ⟨g, hg, hparse⟩ := ih hrest pattern hmem
      exact ⟨g, List.mem_cons_of_mem glob hg, hparse⟩

/-- A path that a set with these patterns lets through is matched by none of them. -/
theorem not_matches_of_ofText {text : String} {set : IgnoreSet} (h : ofText (some text) = .ok set) {path : Path}
    (hpath : set.ignores path = false) {pattern : String} (hpattern : Lists text pattern) :
    ∃ glob, Glob.parse pattern = .ok glob ∧ glob.matchesPath path = false := by
  rw [ofText] at h
  split at h
  · cases h
  · next globs hcompile =>
    cases h
    obtain ⟨glob, hmem, hparse⟩ := exists_of_compileAll hcompile pattern
      (List.mem_append_right _ (mem_patterns.2 hpattern))
    rw [ignores, List.any_eq_false] at hpath
    exact ⟨glob, hparse, Bool.eq_false_iff.2 (hpath glob hmem)⟩

end IgnoreSet

/-- A run over a directory with an ignore file that is a text ends before anything is rendered, or it renders documents
whose paths below the directory are matched by no pattern of the file. If it succeeds, its pages are theirs. -/
theorem processDirectory_ignores {input : Path} {w : World} {text : String}
    (htext : w.fs.readText (input.join IgnoreSet.fileName) = .ok text) (renderer : Renderer)
    (options : DirectoryOptions) :
    let run := processDirectory renderer input options w
    let m := Method.ofChoices renderer options.toChoices
    (m.Rendered w [] run ∧ ∃ e, run.1 = .error e) ∨
      ∃ rs, m.Rendered w rs run ∧ (∀ pages, run.1 = .ok pages → pages = rs.map Rendering.target) ∧
        ∀ r ∈ rs, ∃ names, r.source = input.below names ∧
          r.target = targetPath ⟨unsplit names⟩ options.outputDir options.outputFormat ∧
          ∀ pattern, IgnoreSet.Lists text pattern →
            ∃ glob, Glob.parse pattern = .ok glob ∧ glob.matchesPath ⟨unsplit names⟩ = false := by
  obtain hrefused | ⟨ignored, hload, rs, hrendered, hchosen, hpages⟩ :=
    processDirectory_rendered renderer input options w
  · exact .inl hrefused
  · have hset : IgnoreSet.ofText (some text) = .ok ignored := by
      have hresult := (observes_load (input.join IgnoreSet.fileName) w).2
      rw [IgnoreSet.load_of_text htext] at hresult
      exact hresult.trans hload
    refine .inr ⟨rs, hrendered, hpages, fun r hr => ?_⟩
    obtain ⟨names, htakes⟩ := hchosen.takes r hr
    refine ⟨names, htakes.source, htakes.target, fun pattern hpattern => ?_⟩
    have hkept := htakes.kept
    rw [Batch.skips, Bool.or_eq_false_iff] at hkept
    exact IgnoreSet.not_matches_of_ofText hset hkept.2 hpattern

/-- A run past a draft. -/
theorem Collection.processDirectory_withoutDrafts :
    files.readText ((Path.ofString "in").join IgnoreSet.fileName) = .ok "draft.*" ∧
    files.get? (named ["w", "docs", "draft.rs"]) = some (.file []) ∧
    ∃ (w' : World) (rs : List Rendering), processDirectory Template.engine (Path.ofString "in") options ⟨files, []⟩ =
        (.ok (rs.map Rendering.target), w') ∧
      rs.map Rendering.target = [Path.ofString "docs/sub/a.html", Path.ofString "docs/sub/sub/b.html"] ∧
      ∀ r ∈ rs, ∃ names, r.source = (Path.ofString "in").below names ∧
        ∃ glob, Glob.parse "draft.*" = .ok glob ∧ glob.matchesPath ⟨unsplit names⟩ = false := by
  have htext : files.readText ((Path.ofString "in").join IgnoreSet.fileName) = .ok "draft.*" := by cbv
  have hlists : IgnoreSet.Lists "draft.*" "draft.*" := by
    rw [← IgnoreSet.mem_patterns]
    decide
  obtain ⟨notices, hrun⟩ := processDirectory_eq
  obtain ⟨-, e, he⟩ | ⟨rs, -, hpages, hkept⟩ :=
    processDirectory_ignores (w := ⟨files, []⟩) htext Template.engine options
  · rw [hrun] at he
    cases he
  · rw [hrun] at hpages
    have htargets := hpages _ rfl
    refine ⟨htext, rfl, _, rs, htargets ▸ hrun, htargets.symm, fun r hr => ?_⟩
    obtain ⟨names, hsource, -, hmatches⟩ := hkept r hr
    exact ⟨names, hsource, hmatches _ hlists⟩

/-! ### An ignore file that is no text -/

namespace Unreadable

/-- The first line of the ignore file names the document. The second one is no text. -/
def ignoreBytes : List UInt8 :=
  Text.encode "secret.rs\n" ++ [0xFF]

def files : FileSystem where
  entries := [
    (Collection.named ["w"], .directory),
    (Collection.named ["w", "out"], .directory),
    (Collection.named ["w", "in"], .directory),
    (Collection.named ["w", "in", ".litdocignore"], .file ignoreBytes),
    (Collection.named ["w", "in", "secret.rs"], .file (Text.encode "x"))]
  current := Collection.named ["w"]

def options : DirectoryOptions where
  toChoices := Choices.none
  outputDir := Path.ofString "out"
  scriptExtensions := []

def page : String :=
  "<pre><code class=\"language-rs\">x</code></pre>\n\n\n"

def withPage : FileSystem :=
  files.put (Collection.named ["w", "out", "secret.html"]) (.file (Text.encode page))

theorem matches_secret :
    ∃ glob, Glob.parse "secret.rs" = .ok glob ∧ glob.matchesPath (Path.ofString "secret.rs") = true := by
  have hmatches : (Glob.parse "secret.rs").toOption.map (fun glob => glob.matchesPath (Path.ofString "secret.rs")) =
      some true := by
    cbv
  obtain ⟨glob, hglob, hpath⟩ := Option.map_eq_some_iff.1 hmatches
  refine ⟨glob, ?_, hpath⟩
  cases hparse : Glob.parse "secret.rs" with
  | error e =>
    rw [hparse] at hglob
    cases hglob
  | ok found =>
    rw [hparse] at hglob
    cases hglob
    rfl

/-- With the default patterns, the page of the document is written. -/
theorem processAll_files (n : Nat) (notices : List Notice) :
    ∃ notices', Batch.processAll ⟨Template.engine, options, IgnoreSet.defaults⟩ (n + 3) []
      [Collection.visiting []] ⟨files, notices⟩ =
        (.ok [(Path.ofString "out/secret.html", Path.ofString "in/secret.rs")], ⟨withPage, notices'⟩) := by
  have hstart : nextFile files 7 [Collection.visiting []] =
      .ok (some (Collection.visiting [".litdocignore"], [Collection.visiting ["secret.rs"]])) := by cbv
  have hsecret : nextFile files 7 [Collection.visiting ["secret.rs"]] =
      .ok (some (Collection.visiting ["secret.rs"], [])) := by cbv
  have hend : nextFile withPage 8 [] = .ok none := rfl
  have hmade : files.prepare (Path.ofString "out/secret.html") = (files, .ok ()) := by cbv
  have hsource : files.readText (Collection.visiting ["secret.rs"]).path = .ok "x" := by cbv
  have hpage : pageText Template.engine .script options.toChoices (Collection.visiting ["secret.rs"]).path files =
      .ok page := by
    rw [pageText_of_readText _ _ _ hsource]
    decide
  have hplace : files.writeLocation (Path.ofString "out/secret.html") =
      .ok (Collection.named ["w", "out", "secret.html"]) := by cbv
  have hwrite : files.write (Path.ofString "out/secret.html") (Text.encode page) = .ok withPage := by
    rw [FileSystem.write, hplace]
    rfl
  obtain ⟨notices₁, h₁⟩ := @processFile_passed ⟨Template.engine, options, IgnoreSet.defaults⟩
    (Collection.visiting [".litdocignore"]) (by decide) [] files notices
  obtain ⟨notices₂, h₂⟩ := @processFile_ok ⟨Template.engine, options, IgnoreSet.defaults⟩ []
    (Collection.visiting ["secret.rs"]) .script _ _ _ notices₁ _ (by decide) (by decide) rfl hmade hpage
    hwrite
  refine ⟨notices₂, ?_⟩
  rw [Batch.processAll_file hstart h₁, Batch.processAll_file hsecret h₂, Batch.processAll_none hend]
  rfl

/-- The page of a document is written whose path is a line of the ignore file. -/
theorem processDirectory_exposes :
    files.read ((Path.ofString "in").join IgnoreSet.fileName) = .ok (Text.encode "secret.rs\n" ++ [0xFF]) ∧
    (∃ glob, Glob.parse "secret.rs" = .ok glob ∧ glob.matchesPath (Path.ofString "secret.rs") = true) ∧
    ∃ w', processDirectory Template.engine (Path.ofString "in") options ⟨files, []⟩ =
        (.ok [Path.ofString "out/secret.html"], w') ∧
      w'.fs.get? (Collection.named ["w", "out", "secret.html"]) = some (.file (Text.encode page)) := by
  have hread : files.read ((Path.ofString "in").join IgnoreSet.fileName) =
      .ok (Text.encode "secret.rs\n" ++ [0xFF]) := by cbv
  have hdir : files.isDirectory (Path.ofString "in") = true := by cbv
  have htext : files.readText ((Path.ofString "in").join IgnoreSet.fileName) = .error .invalidUtf8 := by cbv
  have hload := IgnoreSet.load_of_error (w := ⟨files, []⟩) htext
  obtain ⟨n, hlimit⟩ := @exists_maxFiles 3 (by decide)
  obtain ⟨notices, hall⟩ := processAll_files n [.noIgnoreFile ((Path.ofString "in").join IgnoreSet.fileName)]
  rw [← hlimit] at hall
  exact ⟨hread, matches_secret, ⟨withPage, notices⟩, processDirectory_of_load hdir hload hall, rfl⟩

end Unreadable
end Folio
