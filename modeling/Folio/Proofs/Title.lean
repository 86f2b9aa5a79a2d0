import Folio.Proofs.Precedence
import Folio.Proofs.Latex.Escaping

/-!
# Folio.Proofs.Title

The title of a page.

* `Html.Safe`: texts that can be put into a page as they are, as `Latex.Safe` is for LaTeX. Escaped texts are safe.
* `produce_title`: the title of a markdown page is plain text, the same one for every format. It is safe where it has no
  characters with a meaning of their own.
* `Ampersand`: a title that is safe in no format.
-/

namespace Folio

/-! ### Safe texts -/

namespace Html

/-- The characters with a meaning of their own. -/
def specials : List Char :=
  ['<', '&']

/-- A text that begins with a character reference: a name or a number between an ampersand and a semicolon. -/
def StartsReference (text : List Char) : Prop :=
  ∃ number name rest, text = '&' :: number ++ name ++ ';' :: rest ∧ (number = [] ∨ number = ['#']) ∧ name ≠ [] ∧
    ∀ c ∈ name, c.isAlphanum = true

/-- A text without tags, in which each ampersand starts a character reference. -/
def Safe : List Char → Prop
  | [] => True
  | c :: cs => c ≠ '<' ∧ (c = '&' → StartsReference (c :: cs)) ∧ Safe cs

theorem safe_append {piece text : List Char} (hplain : ∀ c ∈ piece, c ∉ specials) (h : Safe text) :
    Safe (piece ++ text) := by
  induction piece with
  | nil => exact h
  | cons c cs ih =>
    have hc := hplain c List.mem_cons_self
    rw [specials, List.mem_cons, List.mem_singleton, not_or] at hc
    exact ⟨hc.1, fun hamp => absurd hamp hc.2, ih fun d hd => hplain d (List.mem_cons_of_mem c hd)⟩

theorem safe_of_plain {text : List Char} (h : ∀ c ∈ text, c ∉ specials) : Safe text := by
  rw [← List.append_nil text]
  exact safe_append h trivial

theorem Safe.after (before : List Char) {text : List Char} (h : Safe (before ++ text)) : Safe text := by
  induction before with
  | nil => exact h
  | cons c before ih => exact ih h.2.2

/-- An ampersand before a blank starts no reference. -/
theorem not_startsReference (rest : List Char) : ¬ StartsReference ('&' :: ' ' :: rest) := by
  rintro ⟨number, name, after, heq, rfl | rfl, hne, halphanum⟩
  · cases name with
    | nil => exact hne rfl
    | cons c name =>
      cases heq
      cases halphanum ' ' List.mem_cons_self
  · cases heq

theorem safe_reference (name : List Char) {text : List Char} (hne : name ≠ [])
    (halphanum : ∀ c ∈ name, c.isAlphanum = true) (h : Safe text) : Safe ('&' :: name ++ ';' :: text) := by
  have hplain : ∀ c ∈ name ++ [';'], c ∉ specials := by
    intro c hc hspecial
    obtain hc | hc := List.mem_append.1 hc
    -- Over the list: `decide` would go through all characters.
    · have hnone : ∀ d ∈ specials, d.isAlphanum = false := List.all_iff_forall_prop.1 rfl
      have hsome := halphanum c hc
      rw [hnone c hspecial] at hsome
      cases hsome
    · rw [List.mem_singleton.1 hc] at hspecial
      revert hspecial
      decide
  have hrest := safe_append hplain h
  rw [List.append_assoc, List.singleton_append] at hrest
  exact ⟨by decide, fun _ => ⟨[], name, text, rfl, .inl rfl, hne, halphanum⟩, hrest⟩

theorem safe_escapeText (text : String) : Safe (escapeText text) := by
  rw [escapeText]
  induction text.toList with
  | nil => trivial
  | cons c cs ih =>
    rw [List.flatMap_cons]
    unfold escapeTextChar
    split
    · exact safe_reference ['a', 'm', 'p'] (List.cons_ne_nil _ _) (List.all_eq_true.1 rfl) ih
    · exact safe_reference ['l', 't'] (List.cons_ne_nil _ _) (List.all_eq_true.1 rfl) ih
    · exact safe_reference ['g', 't'] (List.cons_ne_nil _ _) (List.all_eq_true.1 rfl) ih
    · next hamp hlt hgt =>
      refine safe_append (fun d hd => ?_) ih
      rw [List.mem_singleton.1 hd, specials, List.mem_cons, List.mem_singleton, not_or]
      exact ⟨hlt, hamp⟩

end Html

namespace OutputFormat

/-- The characters with a meaning of their own in a format. -/
def specials : OutputFormat → List Char
  | .html => Html.specials
  | .latex => Latex.specials

/-- A text that can be put into a page of a format as it is. -/
def Safe : OutputFormat → List Char → Prop
  | .html, text => Html.Safe text
  | .latex, text => Latex.Safe text

theorem safe_of_plain {format : OutputFormat} {text : List Char} (h : ∀ c ∈ text, c ∉ format.specials) :
    format.Safe text := by
  cases format with
  | html => exact Html.safe_of_plain h
  | latex => exact Latex.safe_of_plain h

end OutputFormat

/-! ### The title of a markdown page -/

theorem Text.mem_of_mem_trim {text : List Char} {c : Char} (h : c ∈ trim text) : c ∈ text := by
  have hstart : c ∈ (trimStart text).reverse :=
    (List.dropWhile_sublist isBlank).subset (List.mem_reverse.1 h)
  exact (List.dropWhile_sublist isBlank).subset (List.mem_reverse.1 hstart)

theorem mem_of_afterHeadingStart {es rest : List Markdown.Event} (h : afterHeadingStart? es = some rest) :
    ∀ e ∈ rest, e ∈ es := by
  fun_induction afterHeadingStart? es with
  | case1 => cases h
  | case2 level es =>
    cases h
    exact fun e he => List.mem_cons_of_mem _ he
  | case3 first es hfirst ih => exact fun e he => List.mem_cons_of_mem first (ih h e he)

/-- A heading is made of the texts and codes in it. -/
theorem exists_of_mem_headingText {es : List Markdown.Event} {c : Char} (h : c ∈ headingText es) :
    ∃ text, (.text text ∈ es ∨ .code text ∈ es) ∧ c ∈ text.toList := by
  fun_induction headingText es with
  | case1 => cases h
  | case2 => cases h
  | case3 text es ih =>
    obtain h | h := List.mem_append.1 h
    · exact ⟨text, .inl List.mem_cons_self, h⟩
    · obtain ⟨text', hmem, hc⟩ := ih h
      exact ⟨text', hmem.imp (List.mem_cons_of_mem _) (List.mem_cons_of_mem _), hc⟩
  | case4 text es ih =>
    obtain h | h := List.mem_append.1 h
    · exact ⟨text, .inr List.mem_cons_self, h⟩
    · obtain ⟨text', hmem, hc⟩ := ih h
      exact ⟨text', hmem.imp (List.mem_cons_of_mem _) (List.mem_cons_of_mem _), hc⟩
  | case5 first es _ _ _ ih =>
    obtain ⟨text, hmem, hc⟩ := ih h
    exact ⟨text, hmem.imp (List.mem_cons_of_mem first) (List.mem_cons_of_mem first), hc⟩

theorem exists_of_mem_firstHeading {es : List Markdown.Event} {title : String} (h : firstHeading? es = some title)
    {c : Char} (hc : c ∈ title.toList) : ∃ text, (.text text ∈ es ∨ .code text ∈ es) ∧ c ∈ text.toList := by
  rw [firstHeading?] at h
  split at h
  · cases h
  · next rest hrest =>
    split at h
    · cases h
    · next heading hheading =>
      cases h
      rw [String.toList_ofList] at hc
      obtain ⟨text, hmem, hc⟩ := exists_of_mem_headingText (Text.mem_of_mem_trim hc)
      have hsub := mem_of_afterHeadingStart hrest
      exact ⟨text, hmem.imp (hsub _) (hsub _), hc⟩

namespace Content

theorem get?_title {settings : Settings} (hnone : settings.replacements.get? titleName = none)
    (source : Path) (title page text : String) :
    ((ParameterSet.ofPairs (generated settings source title page text)).insertAll settings.replacements.pairs).get?
      titleName = some title := by
  rw [ParameterSet.get?_insertAll_pairs, hnone, Option.none_or, ParameterSet.get?_ofPairs,
    lookup_reverse (nodup_generated settings source title page text)]
  rfl

theorem title_markdown {source : Path} {es : List Markdown.Event} {name : String}
    (h : title .markdown source es = .ok name) :
    firstHeading? es = some name ∨ firstHeading? es = none ∧ stem source = .ok name := by
  rw [title] at h
  cases hfirst : firstHeading? es with
  | some heading =>
    rw [hfirst] at h
    cases h
    exact .inl rfl
  | none =>
    rw [hfirst] at h
    exact .inr ⟨rfl, h⟩

end Content

/-- The title of a markdown page is the plain text of the first heading, made of the texts and codes of the document, or
else the stem of the file name. It is the same for every format, and safe in the format of the page if none of its
characters has a meaning of its own there. -/
theorem produce_title {settings : Settings} (hnone : settings.replacements.get? "page-title" = none) {source : Path}
    {content : Content} {w w' : World} (h : Content.produce .markdown settings source w = (.ok content, w')) :
    ∃ text title, w.fs.readText source = .ok text ∧ content.parameters.get? "page-title" = some title ∧
      (firstHeading? (Markdown.events text) = some title ∧ (∀ c ∈ title.toList, ∃ part,
          (.text part ∈ Markdown.events text ∨ .code part ∈ Markdown.events text) ∧ c ∈ part.toList) ∨
        firstHeading? (Markdown.events text) = none ∧ Content.stem source = .ok title) ∧
      (∀ other : Settings, other.replacements.get? "page-title" = none →
        ∃ content', (Content.produce .markdown other source).result w.fs = .ok content' ∧
          content'.parameters.get? "page-title" = some title) ∧
      ((∀ c ∈ title.toList, c ∉ settings.format.specials) → settings.format.Safe title.toList) := by
  obtain ⟨text, title, htext, htitle, hparameters⟩ := Content.of_produce_ok h
  refine ⟨text, title, htext, ?_, ?_, fun other hother => ?_, OutputFormat.safe_of_plain⟩
  · rw [hparameters]
    exact Content.get?_title hnone _ _ _ _
  · exact (Content.title_markdown htitle).imp_left fun hfirst =>
      ⟨hfirst, fun c hc => exists_of_mem_firstHeading hfirst hc⟩
  · exact ⟨_, Content.result_produce_of_title htext htitle other, Content.get?_title hother _ _ _ _⟩

namespace Ampersand

/-- Two documents, of which one has an ampersand in its title. -/
def files : FileSystem where
  entries := [
    ([Text.encode "w"], .directory),
    ([Text.encode "w", Text.encode "plain.md"], .file (Text.encode "# A *short* `title`\n")),
    ([Text.encode "w", Text.encode "doc.md"], .file (Text.encode "# R & D\n"))]
  current := [Text.encode "w"]

def settings (format : OutputFormat) : Settings :=
  ⟨format, false, ParameterSet.empty⟩

theorem produce_plain :
    (settings .latex).replacements.get? "page-title" = none ∧
    ∃ content w', Content.produce .markdown (settings .latex) (Path.ofString "plain.md") ⟨files, []⟩ =
        (.ok content, w') ∧
      content.parameters.get? "page-title" = some "A short title" ∧ Latex.Safe "A short title".toList := by
  have hread : files.readText (Path.ofString "plain.md") = .ok "# A *short* `title`\n" := by cbv
  have htitle : Content.title .markdown (Path.ofString "plain.md")
      (Content.documentEvents .markdown (Path.ofString "plain.md") "# A *short* `title`\n") = .ok "A short title" := by
    cbv
  have hobserves := observes_produce .markdown (settings .latex) (Path.ofString "plain.md")
  obtain ⟨w', hproduce⟩ := hobserves.exists_eq ⟨files, []⟩ (Content.result_produce_of_title hread htitle _)
  obtain ⟨text, title, htext, hparameter, htitle', -, hsafe⟩ := produce_title rfl hproduce
  cases hread.symm.trans htext
  have hfirst : firstHeading? (Markdown.events "# A *short* `title`\n") = some "A short title" := by cbv
  obtain ⟨hheading, -⟩ | ⟨hnone, -⟩ := htitle'
  · cases hfirst.symm.trans hheading
    exact ⟨rfl, _, _, hproduce, hparameter, hsafe (List.all_iff_forall_prop.1 rfl)⟩
  · cases hfirst.symm.trans hnone

/-- The plain text of a heading is the title in both formats, and safe in none of them. -/
theorem produce_ampersand :
    files.readText (Path.ofString "doc.md") = .ok "# R & D\n" ∧
    (∃ content, (Content.produce .markdown (settings .html) (Path.ofString "doc.md")).result files = .ok content ∧
      content.parameters.get? "page-title" = some "R & D") ∧
    (∃ content, (Content.produce .markdown (settings .latex) (Path.ofString "doc.md")).result files = .ok content ∧
      content.parameters.get? "page-title" = some "R & D") ∧
    ¬ Html.Safe "R & D".toList ∧ ¬ Latex.Safe "R & D".toList := by
  have hread : files.readText (Path.ofString "doc.md") = .ok "# R & D\n" := by cbv
  have htitle : Content.title .markdown (Path.ofString "doc.md")
      (Content.documentEvents .markdown (Path.ofString "doc.md") "# R & D\n") = .ok "R & D" := by
    cbv
  refine ⟨hread, ⟨_, Content.result_produce_of_title hread htitle _, Content.get?_title rfl _ _ _ _⟩,
    ⟨_, Content.result_produce_of_title hread htitle _, Content.get?_title rfl _ _ _ _⟩, fun hsafe => ?_,
    fun hsafe => ?_⟩
  · have hampersand := Html.Safe.after ['R', ' '] hsafe
    exact Html.not_startsReference _ (hampersand.2.1 rfl)
  · exact hsafe.plain (by decide) '&' (by decide) (by decide)

end Ampersand
end Folio
