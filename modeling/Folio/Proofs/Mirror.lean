import Folio.Kind
import Folio.Proofs.Target

/-!
# Folio.Proofs.Mirror

The output directory as a mirror of the input directory.

* `components_join`: what is put behind a path adds its components.
* `exists_of_fileName?`: a path with a file name has it as its last part that counts.
* `IsLeaf`: the relative path of a document. `IsLeaf.cases` takes it apart.
* `targetPath_components`: a page has the components of the output directory, those of the parent of its document, and a
  name made of the stem. `Dotted` is the one spelling that leads to the directory above instead.
* `targetPath_same_iff`: which pages have the same place.
-/

namespace Folio
namespace Path

/-! ### Components -/

theorem Component.ofPart?_eq_none {part : Name} : ofPart? part = none ↔ part = [] ∨ part = dotName := by
  rw [ofPart?]
  split
  · next h => simp [h]
  · next h =>
    split <;> simp [h]

theorem Component.ofPart?_eq_normal {part name : Name} (h : ofPart? part = some (.normal name)) :
    part = name ∧ name ≠ [] ∧ name ≠ dotName ∧ name ≠ dotDotName := by
  rw [ofPart?] at h
  split at h
  · cases h
  · next hidle =>
    split at h
    · cases h
    · next hup =>
      cases h
      rw [not_or] at hidle
      exact ⟨rfl, hidle.1, hidle.2, hup⟩

/-- The components of a relative path that does not begin with a dot for the current directory. -/
theorem components_of_relative {p : Path} (h : p.isAbsolute = false) (hcurrent : .current ∉ p.components) :
    p.components = (split p.bytes).filterMap Component.ofPart? := by
  rw [components] at hcurrent ⊢
  obtain ⟨first, rest, hsplit⟩ := List.exists_cons_of_ne_nil (split_ne_nil p.bytes)
  rw [hsplit, h] at hcurrent ⊢
  dsimp only at hcurrent ⊢
  by_cases hdot : first = dotName
  · exact absurd (by simp [Component.ofFirst?, hdot]) hcurrent
  · have hfirst : Component.ofFirst? false first = Component.ofPart? first := by
      rw [Component.ofFirst?, if_neg Bool.false_ne_true, if_neg hdot]
    rw [hfirst, List.filterMap_cons]
    cases Component.ofPart? first <;> rfl

theorem components_join (p : Path) {q : Path} (h : q.isAbsolute = false) (hcurrent : .current ∉ q.components) :
    (p.join q).components = p.components ++ q.components := by
  by_cases hp : p.bytes = []
  · have hjoin : p.join q = q := by
      rw [join, if_neg (by rw [h]; simp), if_pos (.inl hp), hp]
      rfl
    have hnone : p.components = [] := by
      rw [components, isAbsolute, hp]
      rfl
    rw [hjoin, hnone, List.nil_append]
  · have hsplit := split_eq_stemParts p
    cases hstem : stemParts p with
    | nil =>
      -- then the path is empty
      rw [hstem] at hsplit
      have hbytes := unsplit_split p.bytes
      obtain heq | heq := hsplit <;> rw [heq] at hbytes <;> exact absurd hbytes.symm hp
    | cons first more =>
      have hrest : p.components = (Component.ofFirst? p.isAbsolute first).toList ++ more.filterMap Component.ofPart? := by
        rw [components]
        obtain heq | heq := hsplit <;> rw [heq, hstem]
        simp [Component.ofPart?]
      rw [hrest, components_of_relative h hcurrent, components, isAbsolute_join_relative p h, split_join_relative p h,
        hstem, List.cons_append, List.append_assoc, ← List.filterMap_append]

/-! ### File names -/

/-- A path with a file name has it as its last part that counts. -/
theorem exists_of_fileName? {p : Path} {name : Name} (h : p.fileName? = some name) :
    ∃ parts idles, split p.bytes = parts ++ name :: idles ∧ AreIdle idles ∧ isName name = true := by
  have hlast : p.components.getLast? = some (.normal name) := by
    rw [fileName?] at h
    split at h
    · next hlast =>
      cases h
      exact hlast
    · cases h
  obtain ⟨first, rest, hsplit⟩ := List.exists_cons_of_ne_nil (split_ne_nil p.bytes)
  obtain ⟨parts, idles, part, hparts, hidles, hpart⟩ : ∃ parts idles part, first :: rest = parts ++ part :: idles ∧
      AreIdle idles ∧ Component.ofPart? part = some (.normal name) := by
    rw [components, hsplit] at hlast
    dsimp only at hlast
    cases hrest : rest.filterMap Component.ofPart? with
    | nil =>
      -- nothing counts behind the first part, so this is the file name
      rw [hrest, List.append_nil] at hlast
      have hidles : AreIdle rest := fun other hother =>
        Component.ofPart?_eq_none.1 (List.filterMap_eq_nil_iff.1 hrest other hother)
      refine ⟨[], rest, first, rfl, hidles, ?_⟩
      rw [Component.ofFirst?] at hlast
      split at hlast
      · cases hlast
      · split at hlast
        · cases hlast
        · cases hfirst : Component.ofPart? first with
          | none =>
            rw [hfirst] at hlast
            cases hlast
          | some c =>
            rw [hfirst] at hlast
            exact hlast
    | cons c more =>
      rw [hrest, List.getLast?_append_of_ne_nil _ (by simp), ← hrest] at hlast
      obtain ⟨init, hinit⟩ := List.getLast?_eq_some_iff.1 hlast
      obtain ⟨front, back, hfront, -, hback⟩ := List.filterMap_eq_append_iff.1 hinit
      obtain ⟨skipped, part, idles, hback', -, hpart, hidles⟩ := List.filterMap_eq_cons_iff.1 hback
      refine ⟨first :: (front ++ skipped), idles, part, by rw [hfront, hback']; simp, fun other hother => ?_, hpart⟩
      exact Component.ofPart?_eq_none.1 (List.filterMap_eq_nil_iff.1 hidles other hother)
  obtain ⟨rfl, hne, hdot, hup⟩ := Component.ofPart?_eq_normal hpart
  have hslash : slash ∉ part := not_mem_of_mem_split (hsplit.trans hparts ▸ List.mem_append_right _ List.mem_cons_self)
  exact ⟨parts, idles, hsplit.trans hparts, hidles, isName_iff.2 ⟨hne, hdot, hup, hslash⟩⟩

/-! ### Paths of documents -/

/-- A path of names, the last one with an extension. -/
structure IsLeaf (r : Path) : Prop where
  names : ∀ c ∈ r.components, ∃ name, c = .normal name
  extension : r.extension?.isSome = true

/-- The name at the end of a path has two dots before its extension, and nothing is written behind it. -/
def Dotted (r : Path) : Prop :=
  r.stem? = some [dot] ∧ (split r.bytes).getLast? = r.fileName?

/-- Two paths have the same parent, and their file names have the same stem. -/
def SameStem (r s : Path) : Prop :=
  r.parent?.map components = s.parent?.map components ∧ r.stem? = s.stem?

instance (r : Path) : Decidable r.Dotted :=
  inferInstanceAs (Decidable (_ ∧ _))

instance (r s : Path) : Decidable (r.SameStem s) :=
  inferInstanceAs (Decidable (_ ∧ _))

variable {r s : Path} {parts idles : List Name} {before after : Name}

theorem IsLeaf.current (h : IsLeaf r) : .current ∉ r.components := by
  intro hmem
  obtain ⟨name, hname⟩ := h.names _ hmem
  cases hname

theorem IsLeaf.relative (h : IsLeaf r) : r.isAbsolute = false := by
  by_contra habsolute
  rw [Bool.not_eq_false] at habsolute
  obtain ⟨name, names, hsplit⟩ := isAbsolute_iff.1 habsolute
  have hroot : .root ∈ r.components := by
    rw [components, hsplit, habsolute]
    exact List.mem_append_left _ List.mem_cons_self
  obtain ⟨name, hname⟩ := h.names _ hroot
  cases hname

/-- The path of a document ends with a stem and an extension. -/
theorem IsLeaf.endsWith (h : IsLeaf r) : ∃ parts before after idles, EndsWith r parts before after idles := by
  obtain ⟨after, hafter⟩ := Option.isSome_iff_exists.1 h.extension
  rw [extension?] at hafter
  cases hfile : r.fileName? with
  | none =>
    rw [hfile] at hafter
    cases hafter
  | some name =>
    rw [hfile] at hafter
    obtain ⟨before, hbefore, rfl, hdot⟩ := eq_of_extensionOf? hafter
    obtain ⟨parts, idles, hsplit, hidle, hname⟩ := exists_of_fileName? hfile
    exact ⟨parts, before, after, idles, hsplit, hidle, hbefore, hdot, (isName_iff.1 hname).2.2.1⟩

theorem EndsWith.dotted_iff (h : EndsWith r parts before after idles) : Dotted r ↔ before = [dot] ∧ idles = [] := by
  rw [Dotted, h.stem?, h.fileName?, h.split_eq, Option.some.injEq]
  refine and_congr_right fun _ => ⟨fun hlast => ?_, fun hnil => by rw [hnil, List.getLast?_concat]⟩
  by_contra hne
  rw [List.append_cons, List.getLast?_append_of_ne_nil _ hne] at hlast
  obtain hidle | hidle := h.idle _ (List.mem_of_getLast? hlast)
  · exact absurd hidle (by simp)
  · exact concat_dot_ne_dotName h.before_ne after hidle

/-! ### Parents -/

/-- What is dropped are idle parts. All parts are dropped if nothing stands before the first slash, the root apart. -/
theorem dropIdle_spec (rooted : Bool) (parts : List Name) :
    ∃ idles, AreIdle idles ∧ parts = idles ++ dropIdle rooted parts ∧
      (dropIdle rooted parts = [] → parts = [] ∨ rooted = false ∧ parts.getLast? = some []) := by
  induction parts with
  | nil => exact ⟨[], areIdle_nil, rfl, fun _ => .inl rfl⟩
  | cons part parts ih =>
    cases parts with
    | nil =>
      by_cases hpart : rooted = false ∧ part = []
      · obtain ⟨rfl, rfl⟩ := hpart
        exact ⟨[[]], fun _ h => .inl (List.mem_singleton.1 h), rfl, fun _ => .inr ⟨rfl, rfl⟩⟩
      · have hkept : dropIdle rooted [part] = [part] := by
          cases rooted <;> simp_all [dropIdle, isIdle]
        exact ⟨[], areIdle_nil, by rw [hkept]; rfl, fun h => by rw [hkept] at h; cases h⟩
    | cons next parts =>
      cases hidle : isIdle false part with
      | true =>
        obtain ⟨idles, hidles, heq, hlast⟩ := ih
        have hpart : part = [] ∨ part = dotName := by simpa [isIdle] using hidle
        rw [dropIdle, if_pos hidle]
        · refine ⟨part :: idles, List.forall_mem_cons.2 ⟨hpart, hidles⟩, by rw [List.cons_append, ← heq], fun hnil => ?_⟩
          exact .inr ((hlast hnil).resolve_left (by simp))
        · simp
      | false =>
        rw [dropIdle, hidle, if_neg Bool.false_ne_true]
        · exact ⟨[], areIdle_nil, rfl, fun hnil => by cases hnil⟩
        · simp

/-- The path of the parts before the last name of a path. -/
def frontOf (parts : List Name) : Path :=
  ⟨unsplit (dropIdle false parts.reverse).reverse⟩

theorem EndsWith.parent? (h : EndsWith r parts before after idles) (hrelative : r.isAbsolute = false) :
    r.parent? = some (frontOf parts) := by
  have hidles : AreIdle idles.reverse := fun part hpart => h.idle part (List.mem_reverse.1 hpart)
  have hreverse : (parts ++ (before ++ dot :: after) :: idles).reverse =
      idles.reverse ++ (before ++ dot :: after) :: parts.reverse := by simp
  rw [Path.parent?, h.split_eq, hrelative, hreverse,
    dropIdle_append _ hidles (by simp) (concat_dot_ne_dotName h.before_ne after), frontOf]
  cases parts.reverse with
  | nil => rfl
  | cons part parts => rfl

/-- The front of a path keeps its parts up to the last one that is not idle. -/
theorem split_frontOf {p : Path} {first : Name} {more rest : List Name} (h : split p.bytes = first :: (more ++ rest))
    (hfirst : first ≠ []) :
    ∃ kept dropped, AreIdle dropped ∧ more = kept ++ dropped ∧
      split (frontOf (first :: more)).bytes = first :: kept := by
  obtain ⟨dropped, hdropped, heq, hnone⟩ := dropIdle_spec false (first :: more).reverse
  have hparts : first :: more = (dropIdle false (first :: more).reverse).reverse ++ dropped.reverse := by
    rw [← List.reverse_append, ← heq, List.reverse_reverse]
  cases hkept : (dropIdle false (first :: more).reverse).reverse with
  | nil =>
    obtain hnil | hlast := hnone (List.reverse_eq_nil_iff.1 hkept)
    · simp at hnil
    · rw [List.getLast?_reverse, List.head?_cons, Option.some.injEq] at hlast
      exact absurd hlast.2 hfirst
  | cons part kept =>
    rw [hkept, List.cons_append] at hparts
    obtain ⟨rfl, rfl⟩ := List.cons.inj hparts
    refine ⟨kept, dropped.reverse, fun other hother => hdropped other (List.mem_reverse.1 hother), rfl, ?_⟩
    have hmem : ∀ other ∈ first :: kept, other ∈ split p.bytes := by
      intro other hother
      rw [h, List.append_assoc, ← List.cons_append]
      exact List.mem_append_left _ hother
    rw [frontOf, hkept]
    exact split_unsplit (by simp) fun other hother => not_mem_of_mem_split (hmem other hother)

/-- The components of a path are those of the front, and the last one. -/
theorem components_eq_front {p : Path} {name : Name} {c : Component} (h : split p.bytes = parts ++ name :: idles)
    (hrelative : p.isAbsolute = false) (hname : Component.ofPart? name = some c) (hidle : AreIdle idles) :
    p.components = (frontOf parts).components ++ [c] := by
  have hne : name ≠ [] ∧ name ≠ dotName := by
    rw [← not_or, ← Component.ofPart?_eq_none, hname]
    simp
  cases parts with
  | nil =>
    have hfront : (frontOf []).components = [] := rfl
    rw [components, h, hrelative, hfront]
    simp [Component.ofFirst?, hne.2, hname, hidle.filterMap]
  | cons first more =>
    have hfirst : first ≠ [] := by
      rintro rfl
      obtain ⟨next, rest, hrest⟩ := List.exists_cons_of_ne_nil (by simp : more ++ name :: idles ≠ [])
      rw [← Bool.not_eq_true, isAbsolute_iff] at hrelative
      exact hrelative ⟨next, rest, by rw [h, List.cons_append, hrest]⟩
    obtain ⟨kept, dropped, hidles, rfl, hfront⟩ := split_frontOf h hfirst
    rw [components, components, h, hfront, hrelative, isAbsolute_of_split hfront hfirst]
    simp [hname, hidles.filterMap, hidle.filterMap]

theorem EndsWith.components (h : EndsWith r parts before after idles) (hrelative : r.isAbsolute = false) :
    r.components = (frontOf parts).components ++ [.normal (before ++ dot :: after)] := by
  refine components_eq_front h.split_eq hrelative ?_ h.idle
  rw [Component.ofPart?, if_neg, if_neg h.ne_up]
  rw [not_or]
  exact ⟨by simp, concat_dot_ne_dotName h.before_ne after⟩

end Path

open Folio.Path

/-! ### Pages -/

variable {r s : Path}

/-- A page has the components of the output directory, those of the parent of its document, and a name: the stem with
the extension of the format. If the path of the document is dotted, it leads to the directory above instead. -/
theorem targetPath_components (h : r.IsLeaf) (outputDir : Path) (format : OutputFormat) :
    ∃ parent stem after, r.parent? = some parent ∧ r.stem? = some stem ∧ dot ∉ after ∧
      r.components = parent.components ++ [.normal (stem ++ dot :: after)] ∧
      (targetPath r outputDir format).components = outputDir.components ++ (parent.components ++
        [if r.Dotted then .parent else .normal (stem ++ dot :: format.extensionName)]) := by
  obtain ⟨parts, before, after, idles, hends⟩ := h.endsWith
  have hcomponents := hends.components h.relative
  refine ⟨_, before, after, hends.parent? h.relative, hends.stem?, hends.dot_notMem, hcomponents, ?_⟩
  -- Whatever the last part becomes, the components before it are those of the parent.
  have hjoin : ∀ (name : Name) (c : Component), slash ∉ name → Component.ofPart? name = some c → c ≠ .current →
      (outputDir.join ⟨unsplit (parts ++ [name])⟩).components =
        outputDir.components ++ ((frontOf parts).components ++ [c]) := by
    intro name c hslash hc hcurrent
    have hne : name ≠ [] := by
      rintro rfl
      cases hc
    obtain ⟨hsplit, hrelative⟩ := hends.replace h.relative hne hslash
    have hnew := components_eq_front hsplit hrelative hc areIdle_nil
    have hfront : .current ∉ (frontOf parts).components :=
      fun hmem => h.current (hcomponents ▸ List.mem_append_left _ hmem)
    rw [components_join outputDir hrelative, hnew]
    rw [hnew, List.mem_append, not_or]
    exact ⟨hfront, fun hmem => hcurrent (List.mem_singleton.1 hmem).symm⟩
  by_cases hdotted : r.Dotted
  · obtain ⟨rfl, rfl⟩ := hends.dotted_iff.1 hdotted
    rw [if_pos hdotted, targetPath_of_endsWith_up hends h.relative]
    exact hjoin dotDotName .parent (by decide) rfl (by simp)
  · have hkept : before = [dot] → idles ≠ [] := fun hdot hnil => hdotted (hends.dotted_iff.2 ⟨hdot, hnil⟩)
    have hpage : Component.ofPart? (before ++ dot :: format.extensionName) =
        some (.normal (before ++ dot :: format.extensionName)) := by
      rw [Component.ofPart?, if_neg, if_neg]
      · rw [concat_dot_eq_dotDotName hends.before_ne]
        exact fun hup => extensionName_ne_nil format hup.2
      · rw [not_or]
        exact ⟨by simp, concat_dot_ne_dotName hends.before_ne _⟩
    rw [if_neg hdotted, targetPath_of_endsWith hends h.relative hkept]
    exact hjoin _ _ (slash_notMem_page hends.slash_notMem format) hpage (by simp)

/-- Two pages have the same place if their documents have the same parent and the same stem, unless the path of just one
of them is dotted. -/
theorem targetPath_same_iff (hr : r.IsLeaf) (hs : s.IsLeaf) (outputDir : Path) (format : OutputFormat) :
    (targetPath r outputDir format).sameComponents (targetPath s outputDir format) = true ↔
      r.SameStem s ∧ (r.Dotted ↔ s.Dotted) := by
  obtain ⟨parent, stem, -, hparent, hstem, -, -, hpage⟩ := targetPath_components hr outputDir format
  obtain ⟨parent', stem', -, hparent', hstem', -, -, hpage'⟩ := targetPath_components hs outputDir format
  rw [sameComponents, beq_iff_eq, hpage, hpage', List.append_cancel_left_eq, SameStem, hparent, hparent', hstem, hstem',
    Option.map_some, Option.map_some, Option.some.injEq, Option.some.injEq]
  have hdot : r.Dotted → stem = [dot] := fun h => Option.some.inj (hstem.symm.trans h.1)
  have hdot' : s.Dotted → stem' = [dot] := fun h => Option.some.inj (hstem'.symm.trans h.1)
  constructor
  · intro heq
    obtain ⟨hfront, hlast⟩ := List.append_inj' heq rfl
    by_cases hd : r.Dotted <;> by_cases hd' : s.Dotted <;> simp [hd, hd'] at hlast
    · exact ⟨⟨hfront, (hdot hd).trans (hdot' hd').symm⟩, by simp [hd, hd']⟩
    · exact ⟨⟨hfront, hlast⟩, by simp [hd, hd']⟩
  · rintro ⟨⟨hfront, rfl⟩, hdotted⟩
    rw [hfront]
    simp only [hdotted]

/-- A page has the extension of its format, and its kind is that of this extension. -/
theorem extension?_targetPath (h : r.IsLeaf) (hdotted : ¬ r.Dotted) (outputDir : Path) (format : OutputFormat) :
    (targetPath r outputDir format).extension? = some format.extensionName := by
  obtain ⟨parent, stem, -, -, hstem, -, -, hpage⟩ := targetPath_components h outputDir format
  obtain ⟨parts, before, after, idles, hends⟩ := h.endsWith
  rw [hends.stem?] at hstem
  cases hstem
  have hfile : (targetPath r outputDir format).fileName? = some (stem ++ dot :: format.extensionName) := by
    rw [fileName?, hpage, if_neg hdotted, ← List.append_assoc, List.getLast?_concat]
  rw [extension?, hfile]
  exact extensionOf?_append hends.before_ne (dot_notMem_extensionName format)

theorem ofPath?_targetPath (h : r.IsLeaf) (hdotted : ¬ r.Dotted) (outputDir : Path) (format : OutputFormat)
    (scripts : List String) :
    DocumentKind.ofPath? scripts (targetPath r outputDir format) =
      if scripts.any fun s => Text.asciiLower s == format.extension then some .script else none := by
  have hlower : Text.asciiLower format.extension = format.extension := by cases format <;> decide
  have hmarkdown : markdownExtensions.contains format.extension = false := by cases format <;> decide
  have hext : extensionText? (targetPath r outputDir format) = some format.extension := by
    rw [extensionText?, extension?_targetPath h hdotted, OutputFormat.extensionName, Option.bind_some,
      Text.decode?_encode, Option.map_some, hlower]
  rw [DocumentKind.ofPath?, hext]
  simp only [hmarkdown, Bool.false_eq_true, if_false]

end Folio
