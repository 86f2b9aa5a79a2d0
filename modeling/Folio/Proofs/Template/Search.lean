import Folio.Proofs.Mirror
import Folio.Proofs.Renderings
import Folio.Proofs.Template.Engine

/-!
# Folio.Proofs.Template.Search

The main template of a page, found again by its name.

* `Beside`: the parts of a path, and those of its file name in its directory.
* `read_beside`: for a file, both lead to the same.
* `Template.findSource_beside`, `Template.findSource_unsafe`: a name that is safe is found in the first directory that
  has it. Any other name is found nowhere.
* `Template.parse_of_not_mem`: a template without an opening brace is its text.
* `render_found`: a page is made from its own template if the name of this is safe.
-/

namespace Folio
namespace Path

variable {p q : Path} {name : Name} {parts : List Name}

/-! ### A directory and a name -/

/-- The parts of a path that ends with a name, and the parts of that name in the directory of the path: a single name is
put behind a dot, and idle parts before the name are dropped. -/
inductive Beside (name : Name) : List Name → List Name → Prop where
  | bare : Beside name [name] [dotName, name]
  | below {front idles : List Name} (hne : front ≠ []) (hidle : AreIdle idles) :
      Beside name (front ++ idles ++ [name]) (front ++ [name])

theorem isAbsolute_iff_head {front rest : List Name} (h : split p.bytes = front ++ rest) (hne : front ≠ [])
    (hrest : rest ≠ []) : p.isAbsolute = true ↔ front.head? = some [] := by
  obtain ⟨first, more, rfl⟩ := List.exists_cons_of_ne_nil hne
  obtain ⟨next, others, hnext⟩ := List.exists_cons_of_ne_nil (show more ++ rest ≠ [] by simp [hrest])
  rw [isAbsolute_iff, h, List.cons_append, hnext]
  simp

theorem Beside.isAbsolute (h : Beside name (split p.bytes) (split q.bytes)) (hne : name ≠ []) :
    q.isAbsolute = p.isAbsolute := by
  generalize hp : split p.bytes = parts at h
  generalize hq : split q.bytes = others at h
  cases h with
  | bare => rw [isAbsolute_of_split hp hne, isAbsolute_of_split hq (by decide)]
  | below hfront _ =>
    rw [List.append_assoc] at hp
    rw [Bool.eq_iff_iff, isAbsolute_iff_head hq hfront (by simp), isAbsolute_iff_head hp hfront (by simp)]

theorem split_join_name (p : Path) (hname : isName name = true) : split (p.join ⟨name⟩).bytes = stemParts p ++ [name] :=
  split_join p (areParts_of_isName (by simp) (List.forall_mem_singleton.2 hname))

theorem unsplit_ne_nil (front : List Name) {last : Name} (hne : last ≠ []) : unsplit (front ++ [last]) ≠ [] := by
  have hlast : unsplit (front ++ [[] ++ last]) = unsplit (front ++ [[]]) ++ last := unsplit_concat_append _ _ _
  rw [List.nil_append] at hlast
  rw [hlast]
  exact List.append_ne_nil_of_right_ne_nil _ hne

/-- Parts that end with a name stay whole. -/
theorem stemParts_unsplit {front : List Name} {last : Name} (hslash : ∀ part ∈ front ++ [last], slash ∉ part)
    (hne : last ≠ []) : stemParts ⟨unsplit (front ++ [last])⟩ = front ++ [last] := by
  have hsplit : split (⟨unsplit (front ++ [last])⟩ : Path).bytes = front ++ [last] := split_unsplit (by simp) hslash
  have hnot : ¬ ((⟨unsplit (front ++ [last])⟩ : Path).bytes = [] ∨
      (⟨unsplit (front ++ [last])⟩ : Path).bytes.getLast? = some slash) :=
    not_or_intro (unsplit_ne_nil front hne) (getLast?_of_split hsplit hne)
  rw [stemParts, if_neg hnot, hsplit]

theorem directory_of_parent {parent : Path} (h : p.parent? = some parent) (hne : parent.bytes ≠ []) :
    p.directory = parent := by
  rw [directory, h]
  exact if_neg hne

theorem beside_directory (hsplit : split p.bytes = parts ++ [name]) (hname : isName name = true) :
    Beside name (split p.bytes) (split (p.directory.join ⟨name⟩).bytes) := by
  obtain ⟨hne, hdot, -, -⟩ := isName_iff.1 hname
  have hdrop : dropIdle p.isAbsolute (split p.bytes).reverse = name :: parts.reverse := by
    rw [hsplit, List.reverse_append]
    exact dropIdle_cons _ hne hdot _
  rw [split_join_name _ hname, hsplit]
  by_cases hnil : parts = []
  · subst hnil
    have hdirectory : p.directory = ofString "." := by
      rw [directory, parent?, hdrop, isAbsolute_of_split hsplit hne]
      rfl
    rw [hdirectory]
    exact .bare
  · obtain ⟨next, more, hmore⟩ := List.exists_cons_of_ne_nil (show parts.reverse ≠ [] by simpa using hnil)
    have hparent : p.parent? = some (ofReversed p.isAbsolute (dropIdle p.isAbsolute parts.reverse)) := by
      rw [parent?, hdrop, hmore]
    obtain ⟨idles, hidles, heq, hnone⟩ := dropIdle_spec p.isAbsolute parts.reverse
    have hparts : parts = (dropIdle p.isAbsolute parts.reverse).reverse ++ idles.reverse := by
      rw [← List.reverse_append, ← heq, List.reverse_reverse]
    have hidle : AreIdle idles.reverse := fun part hpart => hidles part (List.mem_reverse.1 hpart)
    have hkept : dropIdle p.isAbsolute parts.reverse ≠ [] := by
      intro hdropped
      obtain habsurd | ⟨hrelative, hlast⟩ := hnone hdropped
      · rw [hmore] at habsurd
        cases habsurd
      · rw [List.getLast?_reverse] at hlast
        rw [← Bool.not_eq_true, isAbsolute_iff_head hsplit hnil (by simp)] at hrelative
        exact hrelative hlast
    suffices hstem : stemParts p.directory = (dropIdle p.isAbsolute parts.reverse).reverse by
      rw [hstem]
      nth_rewrite 1 [hparts]
      exact .below (by simpa using hkept) hidle
    have hmem : ∀ part ∈ dropIdle p.isAbsolute parts.reverse, part ∈ split p.bytes := by
      intro part hpart
      rw [hsplit, hparts, List.append_assoc]
      exact List.mem_append_left _ (List.mem_reverse.2 hpart)
    obtain hdropped | ⟨hrooted, first, hfirst⟩ | ⟨last, init, hlast, hlast'⟩ :=
      dropIdle_cases p.isAbsolute parts.reverse
    · exact absurd hdropped hkept
    · -- the directory is the root
      rw [hfirst] at hparent hparts ⊢
      rw [hrooted] at hparent
      rw [isAbsolute_iff_head hsplit hnil (by simp), hparts] at hrooted
      obtain rfl : first = [] := Option.some.inj hrooted
      rw [directory_of_parent hparent (by decide)]
      decide
    · rw [hlast] at hparent hmem ⊢
      have hslash : ∀ part ∈ init.reverse ++ [last], slash ∉ part := fun part hpart =>
        not_mem_of_mem_split (hmem part (by simpa [or_comm] using hpart))
      by_cases hroot : p.isAbsolute = true ∧ init = []
      · obtain ⟨hrooted, rfl⟩ := hroot
        rw [isAbsolute_iff_head hsplit hnil (by simp), hparts, hlast] at hrooted
        exact absurd (Option.some.inj hrooted) hlast'
      · have hreversed : ofReversed p.isAbsolute (last :: init) = ⟨unsplit (init.reverse ++ [last])⟩ := by
          rw [ofReversed.eq_def]
          split
          · next hrooted hone => exact absurd ⟨hrooted, (List.cons.inj hone).2⟩ hroot
          · rw [List.reverse_cons]
        rw [hreversed] at hparent
        rw [directory_of_parent hparent (unsplit_ne_nil _ hlast'), List.reverse_cons]
        exact stemParts_unsplit hslash hlast'

theorem unsplit_sublist {names others : List Name} (h : names.Sublist others) : (unsplit names).Sublist (unsplit others) := by
  induction h with
  | slnil => exact .slnil
  | @cons names others part h ih =>
    by_cases hnil : others = []
    · rw [hnil] at h
      rw [List.sublist_nil.1 h]
      exact List.nil_sublist _
    · rw [unsplit_cons hnil]
      exact ih.trans ((List.sublist_cons_self slash _).trans (List.sublist_append_right part _))
  | @cons_cons names others part h ih =>
    by_cases hnil : names = []
    · rw [hnil]
      by_cases hothers : others = []
      · rw [hothers]
      · rw [unsplit_cons hothers]
        exact List.sublist_append_left part _
    · have hothers : others ≠ [] := by
        rintro rfl
        exact hnil (List.sublist_nil.1 h)
      rw [unsplit_cons hnil, unsplit_cons hothers]
      exact (List.Sublist.refl part).append (ih.cons_cons slash)

end Path

namespace FileSystem

open Folio.Path

variable {fs : FileSystem} {p q : Path} {name : Name}

/-! ### A file by its directory and its name -/

theorem follow_idles {through : Bool} {links : Nat} {k : Location} {idles : List Name}
    (hk : fs.get? k = some .directory) (h : AreIdle idles) (more : List Name) :
    fs.follow through links k (idles ++ more) = fs.follow through links k more := by
  induction idles with
  | nil => rfl
  | cons part idles ih =>
    rw [List.cons_append, follow_idle hk (h part List.mem_cons_self)]
    exact ih fun other hother => h other (List.mem_cons_of_mem part hother)

theorem follow_beside {links : Nat} {at_ l : Location} {parts others : List Name} (h : Beside name parts others)
    (hl : fs.follow true links at_ parts = .ok l) : fs.follow true links at_ others = .ok l := by
  cases h with
  | bare => rw [follow_idle (directory_of_follow (by simp) hl) (.inr rfl), hl]
  | @below front idles hne hidle =>
    rw [List.append_assoc] at hl
    obtain ⟨links', k, hk, hreach⟩ := reaches_of_follow (.inl (by simp)) hl
    rw [hreach true _ (.inl rfl), follow_idles hk hidle] at hl
    rw [hreach true _ (.inl rfl), hl]

theorem checkPath_iff : checkPath p = .ok () ↔ 0 ∉ p.bytes ∧ p.bytes ≠ [] ∧ p.bytes.length < maxPathLength := by
  rw [checkPath]
  by_cases hnul : p.bytes.contains 0 = true
  · rw [if_pos hnul]
    simp_all
  · rw [if_neg hnul]
    by_cases hnil : p.bytes = []
    · simp [hnil]
    · rw [if_neg hnil]
      by_cases hlong : maxPathLength ≤ p.bytes.length
      · rw [if_pos hlong]
        simp [hlong]
      · rw [if_neg hlong]
        simp_all

theorem checkPath_beside (h : Beside name (split p.bytes) (split q.bytes)) (hne : name ≠ [])
    (hshort : name.length ≤ maxNameLength) (hp : checkPath p = .ok ()) : checkPath q = .ok () := by
  rw [checkPath_iff, ← unsplit_split p.bytes] at hp
  rw [checkPath_iff, ← unsplit_split q.bytes]
  generalize split p.bytes = parts at h hp
  generalize split q.bytes = others at h
  obtain ⟨hnul, -, hlength⟩ := hp
  cases h with
  | bare =>
    have hbytes : unsplit [dotName, name] = dot :: slash :: name := rfl
    have hname : unsplit [name] = name := rfl
    rw [hname] at hnul
    rw [hbytes]
    refine ⟨by simpa [dot, slash] using hnul, by simp, ?_⟩
    simp only [List.length_cons, maxPathLength, maxNameLength] at hshort ⊢
    omega
  | @below front idles hfront hidle =>
    have hsub : (unsplit (front ++ [name])).Sublist (unsplit (front ++ idles ++ [name])) :=
      unsplit_sublist ((List.sublist_append_left front idles).append (List.Sublist.refl [name]))
    exact ⟨fun hmem => hnul (hsub.subset hmem), unsplit_ne_nil front hne, hsub.length_le.trans_lt hlength⟩

/-- A file is at the end of its path. -/
theorem split_of_read {bytes : List UInt8} (hname : p.fileName? = some name) (hread : fs.read p = .ok bytes) :
    isName name = true ∧ name.length ≤ maxNameLength ∧ ∃ parts, split p.bytes = parts ++ [name] := by
  obtain ⟨parts, idles, hsplit, hidle, hisName⟩ := exists_of_fileName? hname
  obtain ⟨l, hl, hfile⟩ := locate_of_read hread
  have hresolve := resolve_of_locate hl
  rw [resolve, hsplit] at hresolve
  obtain ⟨links, k, hk, hreach⟩ := reaches_of_follow (.inl (by simp)) hresolve
  rw [hreach true _ (.inl rfl)] at hresolve
  have hshort : name.length ≤ maxNameLength := by
    obtain hnames | ⟨-, hlong⟩ := namesEntry_or_long hk hisName
    · exact Nat.le_of_not_lt hnames.short
    · rw [hlong] at hresolve
      cases hresolve
  refine ⟨hisName, hshort, parts, ?_⟩
  by_cases hidles : idles = []
  · rw [hsplit, hidles]
  · -- otherwise the path would lead to a directory
    rw [List.append_cons] at hsplit
    have hfull := resolve_of_locate hl
    rw [resolve, hsplit] at hfull
    obtain ⟨links', k', hk', hreach'⟩ := reaches_of_follow (.inl hidles) hfull
    rw [hreach' true _ (.inl rfl), ← List.append_nil idles, follow_idles hk' hidle, follow_nil] at hfull
    cases hfull
    cases hk'.symm.trans hfile

theorem read_beside {bytes : List UInt8} (hname : p.fileName? = some name) (hread : fs.read p = .ok bytes) :
    fs.read (p.directory.join ⟨name⟩) = .ok bytes := by
  obtain ⟨hisName, hshort, parts, hsplit⟩ := split_of_read hname hread
  have hne := (isName_iff.1 hisName).1
  have hbeside := beside_directory hsplit hisName
  obtain ⟨l, hl, hfile⟩ := locate_of_read hread
  refine read_eq_of_locate ?_ hfile
  have hcheck : checkPath p = .ok () := by
    cases hp : checkPath p with
    | error e =>
      rw [locate, hp] at hl
      cases hl
    | ok => rfl
  have hresolve := resolve_of_locate hl
  rw [locate, checkPath_beside hbeside hne hshort hcheck, hbeside.isAbsolute hne]
  exact follow_beside hbeside hresolve

theorem readText_beside {text : String} (hname : p.fileName? = some name) (hread : fs.readText p = .ok text) :
    fs.readText (p.directory.join ⟨name⟩) = .ok text := by
  rw [readText] at hread ⊢
  cases hbytes : fs.read p with
  | error e =>
    rw [hbytes] at hread
    cases hread
  | ok bytes =>
    rw [hbytes] at hread
    rw [read_beside hname hbytes]
    exact hread

end FileSystem

namespace Template

open Folio.Path

/-! ### Names -/

theorem encode_of_decode? {bytes : List UInt8} {text : String} (h : Text.decode? bytes = some text) :
    Text.encode text = bytes := by
  rw [Text.decode?, String.fromUTF8?] at h
  split at h
  · cases h
    rfl
  · cases h

/-- A name that is not hidden, and has no backslash in it. -/
def Safe (name : Name) : Prop :=
  name.head? ≠ some dot ∧ 0x5C ∉ name

instance (name : Name) : Decidable (Safe name) :=
  inferInstanceAs (Decidable (_ ∧ _))

theorem isSafePart_iff {name : Name} : isSafePart name = true ↔ Safe name := by
  simp [isSafePart, Safe]

variable {fs : FileSystem} {name : String}

/-- A name without a slash is put behind a directory if it is safe. -/
theorem locate?_of_name (dir : Path) (h : slash ∉ Text.encode name) :
    locate? dir name = if Safe (Text.encode name) then some (dir.join ⟨Text.encode name⟩) else none := by
  have hparts : nameParts name = [Text.encode name] := split_of_not_mem h
  simp only [locate?, hparts, List.all_cons, List.all_nil, Bool.and_true, isSafePart_iff, List.foldl_cons,
    List.foldl_nil]

theorem findSource_unsafe (hslash : slash ∉ Text.encode name) (h : ¬ Safe (Text.encode name)) (dirs : List Path) :
    findSource fs name dirs = .error .templateNotFound := by
  induction dirs with
  | nil => rfl
  | cons dir dirs ih =>
    rw [findSource, locate?_of_name dir hslash, if_neg h]
    exact ih

/-- A template is found in its own directory first. -/
theorem findSource_beside {p : Path} {text : String} (hname : p.fileName?.bind Text.decode? = some name)
    (hread : fs.readText p = .ok text) (h : Safe (Text.encode name)) (layoutRoots : List Path) :
    findSource fs name (p.directory :: layoutRoots) = .ok text := by
  obtain ⟨bytes, hbytes, hdecode⟩ := Option.bind_eq_some_iff.1 hname
  obtain rfl := encode_of_decode? hdecode
  obtain ⟨-, -, -, -, hisName⟩ := exists_of_fileName? hbytes
  rw [findSource, locate?_of_name _ (isName_iff.1 hisName).2.2.2, if_pos h]
  dsimp only
  rw [FileSystem.readText_beside hbytes hread]

/-! ### Templates without tags -/

theorem splitTag_of_not_mem {cs : List Char} (h : '\x7b' ∉ cs) : splitTag cs = (cs, none) := by
  induction cs with
  | nil => rfl
  | cons c cs ih =>
    have hc : c ≠ '\x7b' := (List.ne_of_not_mem_cons h).symm
    rw [splitTag, ih (List.not_mem_of_not_mem_cons h)]
    exact hc

theorem withoutFinalBreak_subset (cs : List Char) : withoutFinalBreak cs ⊆ cs := by
  have hdrop : ∀ (c : Char) (cs : List Char), (if cs.getLast? == some c then cs.dropLast else cs) ⊆ cs := by
    intro c cs
    split
    · exact List.dropLast_subset cs
    · exact List.Subset.refl cs
  exact List.Subset.trans (hdrop '\r' _) (hdrop '\n' cs)

variable {source : String}

theorem tokens_of_not_mem (h : '\x7b' ∉ source.toList) :
    tokens source = emitText (withoutFinalBreak source.toList) [] := by
  have hmark : '\x7b' ∉ withoutFinalBreak source.toList := fun hmem => h (withoutFinalBreak_subset _ hmem)
  rw [tokens]
  cases hcs : withoutFinalBreak source.toList with
  | nil => rfl
  | cons c cs =>
    rw [hcs] at hmark
    have hkeep : (if (Trim.keep == Trim.remove) = true then Text.trimStart (c :: cs) else c :: cs) = c :: cs := rfl
    rw [List.length_cons, tokensFrom]
    · rw [hkeep, splitTag_of_not_mem hmark]
    · exact List.cons_ne_nil c cs

/-- A template without an opening brace is its text. -/
theorem parse_of_not_mem (name : String) (h : '\x7b' ∉ source.toList) (hne : withoutFinalBreak source.toList ≠ []) :
    Document.parse name source = .ok ⟨name, [.text (withoutFinalBreak source.toList)], []⟩ := by
  have htokens : tokens source = [.text (withoutFinalBreak source.toList)] := by
    rw [tokens_of_not_mem h, emitText, if_neg (by rwa [List.isEmpty_iff])]
  unfold Document.parse
  rw [htokens]
  rfl

end Template

open Folio.Path Template in
/-- A page is made from its own template: where this is a file with a text, and its name is one of an engine template,
the engine renders that text, whatever stands in the layout roots. The one exception is a name that is not safe: it is
not found at all. -/
theorem render_found {fs : FileSystem} {template : Path} {name text : String}
    (hname : template.fileName?.bind Text.decode? = some name)
    (hsuffix : ".j2".toList <:+ (Text.asciiLower name).toList) (hread : fs.readText template = .ok text)
    (layoutRoots : List Path) (content : Content) :
    let call := renderCall template name layoutRoots content
    let page := (render engine (some template) layoutRoots content).result fs
    (Safe (Text.encode name) → findSource fs name call.searchDirs = .ok text ∧
      page =
        match Document.parse name text with
        | .error fault => .error (.template fault)
        | .ok document =>
          match run (load fs call.searchDirs) jobBound document (Value.ofJson call.context) with
          | .error fault => .error (.template fault)
          | .ok page => .ok page) ∧
    (¬ Safe (Text.encode name) → findSource fs name call.searchDirs = .error .templateNotFound ∧
      page = .error (.template .templateNotFound)) := by
  intro call page
  obtain ⟨bytes, hbytes, hdecode⟩ := Option.bind_eq_some_iff.1 hname
  obtain ⟨-, -, -, -, hisName⟩ := exists_of_fileName? hbytes
  have hslash : slash ∉ Text.encode name := encode_of_decode? hdecode ▸ (isName_iff.1 hisName).2.2.2
  have hpage : page = engine fs call := by
    change (render engine (some template) layoutRoots content).result fs = _
    rw [result_render, choose_eq_engine.2 ⟨rfl, name, hname, hsuffix⟩]
    dsimp only
    rw [hname]
  constructor
  · intro hsafe
    have hfound : findSource fs name call.searchDirs = .ok text := findSource_beside hname hread hsafe layoutRoots
    have hload : load fs call.searchDirs call.name = Document.parse name text := by
      change load fs call.searchDirs name = _
      rw [load, hfound]
    refine ⟨hfound, ?_⟩
    rw [← hload]
    exact hpage
  · intro hunsafe
    have hmissing : findSource fs name call.searchDirs = .error .templateNotFound :=
      findSource_unsafe hslash hunsafe call.searchDirs
    have hload : load fs call.searchDirs call.name = .error .templateNotFound := by
      change load fs call.searchDirs name = _
      rw [load, hmissing]
    refine ⟨hmissing, ?_⟩
    rw [hpage, engine, hload]

namespace Hidden

/-- Two templates, the second one hidden, and a directory with templates of the same names. -/
def files : FileSystem where
  entries := [
    ([Text.encode "w"], .directory),
    ([Text.encode "w", Text.encode "site"], .directory),
    ([Text.encode "w", Text.encode "site", Text.encode "page.J2"], .file (Text.encode "own")),
    ([Text.encode "w", Text.encode "site", Text.encode ".page.j2"], .file (Text.encode "hidden")),
    ([Text.encode "w", Text.encode "lib"], .directory),
    ([Text.encode "w", Text.encode "lib", Text.encode "page.J2"], .file (Text.encode "other")),
    ([Text.encode "w", Text.encode "lib", Text.encode ".page.j2"], .file (Text.encode "other"))]
  current := [Text.encode "w"]

def content : Content where
  parameters := ParameterSet.empty
  tag := "document"

/-- The template is found in spite of the idle parts of its path, and before the one in the layout root. -/
theorem render_own :
    (render Template.engine (some (Path.ofString "site/.//page.J2")) [Path.ofString "lib"] content).result files =
      .ok "own" := by
  have hname : (Path.ofString "site/.//page.J2").fileName?.bind Text.decode? = some "page.J2" := by decide
  have hsuffix : ".j2".toList <:+ (Text.asciiLower "page.J2").toList := by
    rw [← List.isSuffixOf_iff_suffix]
    decide
  have hread : files.readText (Path.ofString "site/.//page.J2") = .ok "own" := by cbv
  obtain ⟨hsafe, -⟩ := render_found hname hsuffix hread [Path.ofString "lib"] content
  obtain ⟨-, hpage⟩ := hsafe (by decide)
  have hparse : Template.Document.parse "page.J2" "own" = .ok ⟨"page.J2", [.text "own".toList], []⟩ :=
    Template.parse_of_not_mem "page.J2" (by decide) (by decide)
  have hrun : ∀ load context n, Template.run load (n + 1) ⟨"page.J2", [.text "own".toList], []⟩ context = .ok "own" := by
    intro load context n
    rfl
  rw [hpage, hparse]
  dsimp only
  have hbound : Template.jobBound = (Template.jobBound - 1) + 1 := by decide
  rw [hbound, hrun]

/-- The hidden template is a file with a text, and it is not found. -/
theorem render_hidden :
    isEngineTemplate (Path.ofString "site/.page.j2") = true ∧
    files.readText (Path.ofString "site/.page.j2") = .ok "hidden" ∧
    (render Template.engine (some (Path.ofString "site/.page.j2")) [Path.ofString "lib"] content).result files =
      .error (.template .templateNotFound) := by
  refine ⟨by decide, by cbv, ?_⟩
  cbv

end Hidden

end Folio
