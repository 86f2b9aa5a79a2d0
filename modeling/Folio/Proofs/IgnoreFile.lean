import Folio.Proofs.Batch.Ignored
import Folio.Proofs.Lines

/-!
# Folio.Proofs.IgnoreFile

An ignore file as the union of its lines.

* `exists_of_isValid`, `of_ofText_error`: an ignore file is accepted when each of its patterns is.
* `ignores_iff`: a path is ignored when one of the patterns matches it.
* `Alike`: two ignore files that are both refused, or ignore the same paths.
* `ofText_union`: what an ignore file says, and which changes of its text make no difference to that.
-/

namespace Folio
namespace IgnoreSet

/-! ### Patterns -/

/-- A text is a pattern. -/
def IsValid (pattern : String) : Prop :=
  ∃ glob, Glob.parse pattern = .ok glob

/-- A pattern matches a path on its own. -/
def Matches (pattern : String) (path : Path) : Prop :=
  ∃ glob, Glob.parse pattern = .ok glob ∧ glob.matchesPath path = true

/-- A text that is not accepted is no pattern, and the failure says so. -/
theorem of_compile_error {pattern : String} {e : Error} (h : compile pattern = .error e) :
    ¬ IsValid pattern ∧ ∃ message, e = .ignore message := by
  rw [compile] at h
  split at h
  · cases h
  · next cause hparse =>
    cases h
    refine ⟨?_, _, rfl⟩
    rintro ⟨glob, hglob⟩
    cases hparse.symm.trans hglob

theorem exists_of_mem_compileAll {patterns : List String} {globs : List Glob} (h : compileAll patterns = .ok globs) :
    ∀ glob ∈ globs, ∃ pattern ∈ patterns, Glob.parse pattern = .ok glob := by
  induction patterns generalizing globs with
  | nil =>
    cases h
    exact fun glob hmem => absurd hmem List.not_mem_nil
  | cons first patterns ih =>
    obtain ⟨glob, rest, hfirst, hrest, rfl⟩ := of_compileAll_cons h
    intro g hmem
    obtain rfl | hmem := List.mem_cons.1 hmem
    · exact ⟨first, List.mem_cons_self, hfirst⟩
    · obtain ⟨pattern, hpattern, hparse⟩ := ih hrest g hmem
      exact ⟨pattern, List.mem_cons_of_mem first hpattern, hparse⟩

theorem of_compileAll_error {patterns : List String} {e : Error} (h : compileAll patterns = .error e) :
    (∃ pattern ∈ patterns, ¬ IsValid pattern) ∧ ∃ message, e = .ignore message := by
  induction patterns with
  | nil => cases h
  | cons pattern patterns ih =>
    rw [compileAll] at h
    cases hfirst : compile pattern with
    | error cause =>
      rw [hfirst] at h
      cases h
      obtain ⟨hinvalid, hmessage⟩ := of_compile_error hfirst
      exact ⟨⟨pattern, List.mem_cons_self, hinvalid⟩, hmessage⟩
    | ok glob =>
      rw [hfirst] at h
      dsimp only at h
      cases hrest : compileAll patterns with
      | error cause =>
        rw [hrest] at h
        cases h
        obtain ⟨⟨other, hmem, hinvalid⟩, hmessage⟩ := ih hrest
        exact ⟨⟨other, List.mem_cons_of_mem pattern hmem, hinvalid⟩, hmessage⟩
      | ok globs =>
        rw [hrest] at h
        cases h

theorem isValid_default {pattern : String} (h : pattern ∈ defaultPatterns) : IsValid pattern := by
  have hcompile : ∃ globs, compileAll defaultPatterns = .ok globs := ⟨_, rfl⟩
  obtain ⟨globs, hglobs⟩ := hcompile
  obtain ⟨glob, -, hparse⟩ := exists_of_compileAll hglobs pattern h
  exact ⟨glob, hparse⟩

variable {text text' : String} {set : IgnoreSet}

theorem compileAll_of_ofText (h : ofText (some text) = .ok set) :
    compileAll (defaultPatterns ++ patterns text) = .ok set.globs := by
  rw [ofText] at h
  split at h
  · cases h
  · next globs hglobs =>
    cases h
    exact hglobs

/-- An ignore file is refused if one of its patterns is none, and for no other reason. -/
theorem of_ofText_error {e : Error} (h : ofText (some text) = .error e) :
    (∃ pattern, Lists text pattern ∧ ¬ IsValid pattern) ∧ ∃ message, e = .ignore message := by
  rw [ofText] at h
  split at h
  · next cause hcompile =>
    cases h
    obtain ⟨⟨pattern, hmem, hinvalid⟩, hmessage⟩ := of_compileAll_error hcompile
    refine ⟨⟨pattern, ?_, hinvalid⟩, hmessage⟩
    obtain hdefault | hown := List.mem_append.1 hmem
    · exact absurd (isValid_default hdefault) hinvalid
    · exact mem_patterns.1 hown
  · cases h

theorem isValid_of_ofText (h : ofText (some text) = .ok set) {pattern : String} (hpattern : Lists text pattern) :
    IsValid pattern := by
  obtain ⟨glob, -, hparse⟩ := exists_of_compileAll (compileAll_of_ofText h) pattern
    (List.mem_append_right _ (mem_patterns.2 hpattern))
  exact ⟨glob, hparse⟩

theorem exists_of_isValid (h : ∀ pattern, Lists text pattern → IsValid pattern) : ∃ set, ofText (some text) = .ok set := by
  cases hset : ofText (some text) with
  | ok set => exact ⟨set, rfl⟩
  | error e =>
    obtain ⟨⟨pattern, hpattern, hinvalid⟩, -⟩ := of_ofText_error hset
    exact absurd (h pattern hpattern) hinvalid

theorem ignores_iff (h : ofText (some text) = .ok set) (path : Path) :
    set.ignores path = true ↔
      (∃ pattern ∈ defaultPatterns, Matches pattern path) ∨ ∃ pattern, Lists text pattern ∧ Matches pattern path := by
  rw [ignores, List.any_eq_true]
  constructor
  · rintro ⟨glob, hglob, hmatches⟩
    obtain ⟨pattern, hpattern, hparse⟩ := exists_of_mem_compileAll (compileAll_of_ofText h) glob hglob
    obtain hdefault | hown := List.mem_append.1 hpattern
    · exact .inl ⟨pattern, hdefault, glob, hparse, hmatches⟩
    · exact .inr ⟨pattern, mem_patterns.1 hown, glob, hparse, hmatches⟩
  · have hany : ∀ pattern ∈ defaultPatterns ++ patterns text, Matches pattern path →
        ∃ glob ∈ set.globs, glob.matchesPath path = true := by
      rintro pattern hmem ⟨glob, hparse, hmatches⟩
      obtain ⟨glob', hmem', hparse'⟩ := exists_of_compileAll (compileAll_of_ofText h) pattern hmem
      cases hparse.symm.trans hparse'
      exact ⟨glob, hmem', hmatches⟩
    rintro (⟨pattern, hdefault, hmatches⟩ | ⟨pattern, hown, hmatches⟩)
    · exact hany pattern (List.mem_append_left _ hdefault) hmatches
    · exact hany pattern (List.mem_append_right _ (mem_patterns.2 hown)) hmatches

/-! ### Changes of the text -/

/-- Two ignore files that count the same: both are refused, or the same paths are ignored. -/
def Alike (text text' : String) : Prop :=
  match ofText (some text), ofText (some text') with
  | .ok set, .ok set' => ∀ path, set.ignores path = set'.ignores path
  | .error _, .error _ => True
  | _, _ => False

/-- Only the patterns count, in whatever order and however often they are listed. -/
theorem alike_of_lists (h : ∀ pattern, Lists text' pattern ↔ Lists text pattern) : Alike text text' := by
  rw [Alike]
  cases hset : ofText (some text) with
  | ok set =>
    obtain ⟨set', hset'⟩ := exists_of_isValid fun pattern hpattern => isValid_of_ofText hset ((h pattern).1 hpattern)
    rw [hset']
    intro path
    rw [Bool.eq_iff_iff, ignores_iff hset, ignores_iff hset']
    simp only [h]
  | error e =>
    cases hset' : ofText (some text') with
    | ok set' =>
      obtain ⟨⟨pattern, hpattern, hinvalid⟩, -⟩ := of_ofText_error hset
      exact absurd (isValid_of_ofText hset' ((h pattern).2 hpattern)) hinvalid
    | error e' => trivial

theorem ofText_congr (h : patterns text' = patterns text) : ofText (some text') = ofText (some text) := by
  rw [ofText, ofText, Option.map_some, Option.map_some, h]

/-- The blanks around lines make no difference. -/
theorem patterns_of_trims (h : (Text.lines text'.toList).map Text.trim = (Text.lines text.toList).map Text.trim) :
    patterns text' = patterns text := by
  rw [patterns, patterns, h]

section Insertion

variable {before after : List (List Char)} {line : List Char} (h : Text.lines text.toList = before ++ after)
  (h' : Text.lines text'.toList = before ++ line :: after)

include h h'

/-- A line that is blank or a comment makes no difference. -/
theorem patterns_inserted (hline : Text.trim line = [] ∨ (Text.trim line).head? = some '#') :
    patterns text' = patterns text := by
  have hnone : isPattern (Text.trim line) = false := by
    rw [Bool.eq_false_iff, Ne, isPattern_iff, not_and_or, not_not, not_not]
    exact hline
  rw [patterns, patterns, h, h']
  simp only [List.map_append, List.map_cons, List.filter_append, List.filter_cons, hnone, Bool.false_eq_true, if_false]

theorem lists_inserted {pattern : String} (hpattern : Lists text' pattern) :
    Lists text pattern ∨ pattern = String.ofList (Text.trim line) := by
  obtain ⟨other, hother, hne, hhead, rfl⟩ := hpattern
  rw [h', List.mem_append, List.mem_cons] at hother
  obtain hother | rfl | hother := hother
  · exact .inl ⟨other, h ▸ List.mem_append_left _ hother, hne, hhead, rfl⟩
  · exact .inr rfl
  · exact .inl ⟨other, h ▸ List.mem_append_right _ hother, hne, hhead, rfl⟩

/-- With one more line that is a pattern, no path that was ignored comes into sight. -/
theorem ignores_inserted {set : IgnoreSet} (hset : ofText (some text) = .ok set)
    (hvalid : IsValid (String.ofList (Text.trim line))) :
    ∃ set', ofText (some text') = .ok set' ∧ ∀ path, set.ignores path = true → set'.ignores path = true := by
  obtain ⟨set', hset'⟩ : ∃ set', ofText (some text') = .ok set' := by
    refine exists_of_isValid fun pattern hpattern => ?_
    obtain hold | rfl := lists_inserted h h' hpattern
    · exact isValid_of_ofText hset hold
    · exact hvalid
  refine ⟨set', hset', fun path hpath => ?_⟩
  rw [ignores_iff hset] at hpath
  rw [ignores_iff hset']
  refine hpath.imp_right ?_
  rintro ⟨pattern, ⟨other, hother, hlists⟩, hmatches⟩
  rw [h, List.mem_append] at hother
  refine ⟨pattern, ⟨other, ?_, hlists⟩, hmatches⟩
  rw [h', List.mem_append, List.mem_cons]
  exact hother.imp_right .inr

end Insertion

/-- An ignore file is refused exactly if one of its lines is no pattern, blank lines and comments apart. Otherwise it
ignores the paths that a default pattern or one of these lines matches on its own. The order of the lines, and how often
they occur, makes no difference, nor do blank lines, comments, the kind of the line ends and the indentation. One more
pattern brings no ignored path into sight. -/
theorem ofText_union (text : String) :
    (∀ path w, w.fs.readText path = .ok text → load path w = (ofText (some text), w)) ∧
    ((∃ e, ofText (some text) = .error e) ↔ ∃ pattern, Lists text pattern ∧ ¬ IsValid pattern) ∧
    (∀ e, ofText (some text) = .error e → ∃ message, e = .ignore message) ∧
    (∀ set, ofText (some text) = .ok set → ∀ path, set.ignores path = true ↔
      (∃ pattern ∈ defaultPatterns, Matches pattern path) ∨ ∃ pattern, Lists text pattern ∧ Matches pattern path) ∧
    ∀ text' : String,
      let lines := Text.lines text.toList
      let lines' := Text.lines text'.toList
      ((∀ line, line ∈ lines' ↔ line ∈ lines) → Alike text text') ∧
      (Text.Returned text.toList text'.toList → ofText (some text') = ofText (some text)) ∧
      ∀ before after,
        (∀ indent indent' body, (∀ c ∈ indent ++ indent', Text.isBlank c = true) →
          lines = before ++ (indent ++ body) :: after → lines' = before ++ (indent' ++ body) :: after →
            ofText (some text') = ofText (some text)) ∧
        ∀ line, lines = before ++ after → lines' = before ++ line :: after →
          (Text.trim line = [] ∨ (Text.trim line).head? = some '#' → ofText (some text') = ofText (some text)) ∧
          (IsValid (String.ofList (Text.trim line)) → ∀ set, ofText (some text) = .ok set →
            ∃ set', ofText (some text') = .ok set' ∧ ∀ path, set.ignores path = true → set'.ignores path = true) := by
  refine ⟨fun path w => load_of_text, ⟨?_, ?_⟩, fun e he => (of_ofText_error he).2, fun set => ignores_iff,
    fun text' => ⟨?_, ?_, fun before after => ⟨?_, ?_⟩⟩⟩
  · rintro ⟨e, he⟩
    exact (of_ofText_error he).1
  · rintro ⟨pattern, hpattern, hinvalid⟩
    cases hset : ofText (some text) with
    | ok set => exact absurd (isValid_of_ofText hset hpattern) hinvalid
    | error e => exact ⟨e, rfl⟩
  · intro hlines
    refine alike_of_lists fun pattern => ?_
    simp only [Lists, hlines]
  · intro hreturned
    exact ofText_congr (patterns_of_trims (Text.trims_of_returned hreturned))
  · intro indent indent' body hblank h h'
    refine ofText_congr (patterns_of_trims ?_)
    have hfirst := Text.trim_indented (fun c hc => hblank c (List.mem_append_left _ hc)) body
    have hsecond := Text.trim_indented (fun c hc => hblank c (List.mem_append_right _ hc)) body
    rw [h, h']
    simp only [List.map_append, List.map_cons, hfirst, hsecond]
  · intro line h h'
    exact ⟨fun hline => ofText_congr (patterns_inserted h h' hline), fun hvalid set hset =>
      ignores_inserted h h' hset hvalid⟩

/-- Drafts and notes, listed in other ways. -/
theorem ofText_union_edited :
    Alike "draft.*\nnotes/**\n" "notes/**\ndraft.*\nnotes/**\n" ∧
    ofText (some "draft.*\r\nnotes/**\n") = ofText (some "draft.*\nnotes/**\n") ∧
    ofText (some "draft.*\n\t notes/**\n") = ofText (some "draft.*\nnotes/**\n") ∧
    ofText (some "draft.*\n # both\nnotes/**\n") = ofText (some "draft.*\nnotes/**\n") ∧
    (∃ set set', ofText (some "draft.*\nnotes/**\n") = .ok set ∧
      ofText (some "draft.*\n*.tex\nnotes/**\n") = .ok set' ∧
      ∀ path, set.ignores path = true → set'.ignores path = true) ∧
    (∃ set, ofText (some "draft.*\nnotes/**\n") = .ok set ∧ set.ignores (Path.ofString "notes/a.rs") = true) ∧
    ∃ message, ofText (some "draft.*\n[a\n") = .error (.ignore message) := by
  obtain ⟨-, -, -, hmatch, hedits⟩ := ofText_union "draft.*\nnotes/**\n"
  obtain ⟨-, hrefused, hmessage, -, -⟩ := ofText_union "draft.*\n[a\n"
  obtain ⟨hordered, -, -⟩ := hedits "notes/**\ndraft.*\nnotes/**\n"
  obtain ⟨-, hreturned, -⟩ := hedits "draft.*\r\nnotes/**\n"
  obtain ⟨-, -, hindented⟩ := hedits "draft.*\n\t notes/**\n"
  obtain ⟨-, -, hcommented⟩ := hedits "draft.*\n # both\nnotes/**\n"
  obtain ⟨-, -, hadded⟩ := hedits "draft.*\n*.tex\nnotes/**\n"
  have hsome : (ofText (some "draft.*\nnotes/**\n")).toOption.isSome = true := by decide +kernel
  have hlines : Text.lines "draft.*\nnotes/**\n".toList = ["draft.*".toList, "notes/**".toList] := by decide
  obtain ⟨set, hset⟩ : ∃ set, ofText (some "draft.*\nnotes/**\n") = .ok set := by
    cases h : ofText (some "draft.*\nnotes/**\n") with
    | ok set => exact ⟨set, rfl⟩
    | error e => simp [h, Except.toOption] at hsome
  refine ⟨hordered ?_, hreturned ?_, ?_, ?_, ?_, ⟨set, hset, ?_⟩, ?_⟩
  · have hlines' : Text.lines "notes/**\ndraft.*\nnotes/**\n".toList =
        ["notes/**".toList, "draft.*".toList, "notes/**".toList] := by decide
    intro line
    rw [hlines, hlines']
    simp only [List.mem_cons]
    tauto
  · exact (Text.Returned.feed (.refl "notes/**\n".toList)).behind "draft.*".toList
  · exact (hindented ["draft.*".toList] []).1 [] "\t ".toList "notes/**".toList
      (List.all_eq_true.1 (by decide)) (by decide) (by decide)
  · exact ((hcommented ["draft.*".toList] ["notes/**".toList]).2 " # both".toList (by decide) (by decide)).1
      (.inr (by decide))
  · obtain ⟨set', hset', hkept⟩ := ((hadded ["draft.*".toList] ["notes/**".toList]).2 "*.tex".toList (by decide)
      (by decide)).2 ⟨_, rfl⟩ set hset
    exact ⟨set, set', hset, hset', hkept⟩
  · have hlisted : Lists "draft.*\nnotes/**\n" "notes/**" := by
      rw [← mem_patterns]
      decide
    have hcovers : (Glob.parse "notes/**").toOption.any (fun glob => glob.matchesPath (Path.ofString "notes/a.rs")) := by
      decide +kernel
    refine (hmatch set hset (Path.ofString "notes/a.rs")).2 (.inr ⟨"notes/**", hlisted, ?_⟩)
    cases hparse : Glob.parse "notes/**" with
    | ok glob => exact ⟨glob, hparse, by simpa [hparse, Except.toOption] using hcovers⟩
    | error e => simp [hparse, Except.toOption] at hcovers
  · have hlisted : Lists "draft.*\n[a\n" "[a" := by
      rw [← mem_patterns]
      decide
    have hinvalid : ¬ IsValid "[a" := by
      rintro ⟨glob, hparse⟩
      have hnone : (Glob.parse "[a").toOption.isNone = true := by decide +kernel
      simp [hparse, Except.toOption] at hnone
    obtain ⟨e, he⟩ := hrefused.2 ⟨"[a", hlisted, hinvalid⟩
    obtain ⟨message, rfl⟩ := hmessage e he
    exact ⟨message, he⟩

end IgnoreSet
end Folio
