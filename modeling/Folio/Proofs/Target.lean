import Mathlib.Data.List.TakeWhile
import Folio.Target
import Folio.Proofs.Path

/-!
# Folio.Proofs.Target

Where the page of a document in a directory is written.

* `cutName_append`, `eq_of_cutName`: a name is cut at its last dot.
* `EndsWith`: a path that ends with a stem and an extension; `EndsWith.withExtension` puts another one behind the stem.
* `targetPath_eq`: the page stands below the output directory at the place of the document, with another extension.
* `targetPath_up`: the one name for which it does not: two dots before the extension.
-/

namespace Folio
namespace Path

/-! ### Names cut at dots -/

theorem cutName_append (before : Name) {after : Name} (h : dot ∉ after) :
    cutName (before ++ dot :: after) = some (before, after) := by
  have hall : ∀ b ∈ after.reverse, (b != dot) = true := by
    intro b hb
    rw [bne_iff_ne]
    rintro rfl
    exact h (List.mem_reverse.1 hb)
  have hafter : ((before ++ dot :: after).reverse.takeWhile (· != dot)).reverse = after := by
    rw [List.reverse_append, List.reverse_cons, List.append_assoc, List.takeWhile_append_of_pos hall]
    simp
  rw [cutName, hafter]
  have hlength : (before ++ dot :: after).length - after.length - 1 = before.length := by
    rw [List.length_append, List.length_cons]
    omega
  have hne : after.length ≠ (before ++ dot :: after).length := by
    rw [List.length_append, List.length_cons]
    omega
  simp only [hlength, if_neg hne, List.take_left]

theorem eq_of_cutName {name before after : Name} (h : cutName name = some (before, after)) :
    name = before ++ dot :: after ∧ dot ∉ after := by
  have hdot : dot ∈ name := by
    by_contra hnot
    have hall : ∀ b ∈ name.reverse, (b != dot) = true := by
      intro b hb
      rw [bne_iff_ne]
      rintro rfl
      exact hnot (List.mem_reverse.1 hb)
    rw [cutName, List.takeWhile_eq_self_iff.2 hall] at h
    simp at h
  obtain ⟨x, y, heq, hx⟩ := List.eq_append_cons_of_mem (List.mem_reverse.2 hdot)
  have hname : name = y.reverse ++ dot :: x.reverse := by
    rw [← List.reverse_reverse name, heq]
    simp
  have hx' : dot ∉ x.reverse := fun hmem => hx (List.mem_reverse.1 hmem)
  have hcut := cutName_append y.reverse hx'
  rw [← hname, h] at hcut
  cases hcut
  exact ⟨hname, hx'⟩

theorem stemOf_append {before after : Name} (hbefore : before ≠ []) (h : dot ∉ after) :
    stemOf (before ++ dot :: after) = before := by
  rw [stemOf, cutName_append before h]
  split
  · next heq =>
    cases heq
    exact absurd rfl hbefore
  · next heq =>
    cases heq
    rfl
  · next heq => cases heq

theorem extensionOf?_append {before after : Name} (hbefore : before ≠ []) (h : dot ∉ after) :
    extensionOf? (before ++ dot :: after) = some after := by
  rw [extensionOf?, cutName_append before h]
  split
  · next heq =>
    cases heq
    exact absurd rfl hbefore
  · next heq =>
    cases heq
    rfl
  · next heq => cases heq

/-- A name with an extension has something before the dot. -/
theorem eq_of_extensionOf? {name after : Name} (h : extensionOf? name = some after) :
    ∃ before, before ≠ [] ∧ name = before ++ dot :: after ∧ dot ∉ after := by
  rw [extensionOf?] at h
  split at h
  · cases h
  · next before after' hnot heq =>
    cases h
    obtain ⟨hname, hdot⟩ := eq_of_cutName heq
    refine ⟨before, ?_, hname, hdot⟩
    rintro rfl
    exact hnot rfl
  · cases h

/-! ### New extensions -/

theorem unsplit_concat_append (names : List Name) (a b : Name) :
    unsplit (names ++ [a ++ b]) = unsplit (names ++ [a]) ++ b := by
  by_cases hnames : names = []
  · rw [hnames]
    rfl
  · rw [unsplit_append hnames (by simp), unsplit_append hnames (by simp), List.append_assoc]
    rfl

/-- What ends with a name does not end with a slash. -/
theorem getLast?_unsplit (names : List Name) {name : Name} (hne : name ≠ []) (hslash : slash ∉ name) :
    (unsplit (names ++ [name])).getLast? ≠ some slash := by
  have hlast : unsplit (names ++ [[] ++ name]) = unsplit (names ++ [[]]) ++ name := unsplit_concat_append _ _ _
  rw [List.nil_append] at hlast
  rw [hlast, List.getLast?_append_of_ne_nil _ hne]
  intro heq
  exact hslash (List.mem_of_getLast? heq)

theorem getLast?_of_split {p : Path} {parts : List Name} {name : Name} (h : split p.bytes = parts ++ [name])
    (hne : name ≠ []) : p.bytes.getLast? ≠ some slash := by
  have hslash : slash ∉ name := not_mem_of_mem_split (h ▸ List.mem_append_right _ List.mem_cons_self)
  rw [← unsplit_split p.bytes, h]
  exact getLast?_unsplit parts hne hslash

theorem dropIdle_cons (rooted : Bool) {name : Name} (hne : name ≠ []) (hdot : name ≠ dotName) (names : List Name) :
    dropIdle rooted (name :: names) = name :: names := by
  cases names with
  | nil => simp [dropIdle, isIdle, hne]
  | cons next names => simp [dropIdle, isIdle, hne, hdot]

theorem dropIdle_append (rooted : Bool) {idles : List Name} (hidle : AreIdle idles) {name : Name} (hne : name ≠ [])
    (hdot : name ≠ dotName) (names : List Name) : dropIdle rooted (idles ++ name :: names) = name :: names := by
  induction idles with
  | nil => exact dropIdle_cons rooted hne hdot names
  | cons part idles ih =>
    obtain ⟨next, more, hmore⟩ := List.exists_cons_of_ne_nil (by simp : idles ++ name :: names ≠ [])
    have hpart : isIdle false part = true := by
      obtain h | h := hidle part List.mem_cons_self <;> simp [isIdle, h]
    have hrest := ih fun other hother => hidle other (List.mem_cons_of_mem part hother)
    rw [hmore] at hrest
    rw [List.cons_append, hmore, dropIdle, if_pos hpart, hrest]
    simp

theorem unsplit_append_eq {names : List Name} (hne : names ≠ []) (rest : List Name) :
    unsplit (names ++ rest) = unsplit names ++ rest.flatMap (slash :: ·) := by
  induction rest generalizing names with
  | nil => rw [List.append_nil, List.flatMap_nil, List.append_nil]
  | cons part rest ih =>
    have hone : unsplit (names ++ [part]) = unsplit names ++ slash :: part := unsplit_append hne (by simp)
    rw [List.append_cons, ih (by simp), hone, List.flatMap_cons, List.append_assoc]

/-- What is left of idle parts when they are cut anywhere. -/
theorem AreIdle.take {idles : List Name} (h : AreIdle idles) (n : Nat) :
    ∃ idles', AreIdle idles' ∧ (idles.flatMap (slash :: ·)).take n = idles'.flatMap (slash :: ·) := by
  induction idles generalizing n with
  | nil => exact ⟨[], h, List.take_nil⟩
  | cons part idles ih =>
    have hidles : AreIdle idles := fun other hother => h other (List.mem_cons_of_mem part hother)
    rw [List.flatMap_cons]
    obtain rfl | rfl := h part List.mem_cons_self
    · cases n with
      | zero => exact ⟨[], areIdle_nil, rfl⟩
      | succ n =>
        obtain ⟨idles', hidles', htake⟩ := ih hidles n
        exact ⟨[] :: idles', List.forall_mem_cons.2 ⟨.inl rfl, hidles'⟩, congrArg (slash :: ·) htake⟩
    · match n with
      | 0 => exact ⟨[], areIdle_nil, rfl⟩
      | 1 => exact ⟨[[]], List.forall_mem_cons.2 ⟨.inl rfl, areIdle_nil⟩, rfl⟩
      | n + 2 =>
        obtain ⟨idles', hidles', htake⟩ := ih hidles n
        exact ⟨dotName :: idles', List.forall_mem_cons.2 ⟨.inr rfl, hidles'⟩, congrArg (slash :: dot :: ·) htake⟩

/-- A path ends with a name that has an extension, and idle parts behind it. -/
structure EndsWith (p : Path) (parts : List Name) (before after : Name) (idles : List Name) : Prop where
  split_eq : split p.bytes = parts ++ (before ++ dot :: after) :: idles
  idle : AreIdle idles
  before_ne : before ≠ []
  dot_notMem : dot ∉ after
  ne_up : before ++ dot :: after ≠ dotDotName

variable {p : Path} {parts idles : List Name} {before after : Name}

theorem concat_dot_ne_dotName (hbefore : before ≠ []) (after : Name) : before ++ dot :: after ≠ dotName := by
  obtain ⟨b, bs, rfl⟩ := List.exists_cons_of_ne_nil hbefore
  simp [dotName]

theorem concat_dot_eq_dotDotName (hbefore : before ≠ []) :
    before ++ dot :: after = dotDotName ↔ before = [dot] ∧ after = [] := by
  obtain ⟨b, bs, rfl⟩ := List.exists_cons_of_ne_nil hbefore
  cases bs with
  | nil => simp [dotDotName]
  | cons c cs => simp [dotDotName]

theorem EndsWith.fileName? (h : EndsWith p parts before after idles) :
    p.fileName? = some (before ++ dot :: after) :=
  fileName?_of_idle h.split_eq (by simp) (concat_dot_ne_dotName h.before_ne after) h.ne_up h.idle

theorem EndsWith.extension? (h : EndsWith p parts before after idles) : p.extension? = some after := by
  rw [Path.extension?, h.fileName?]
  exact extensionOf?_append h.before_ne h.dot_notMem

theorem EndsWith.stem? (h : EndsWith p parts before after idles) : p.stem? = some before := by
  rw [Path.stem?, h.fileName?, Option.map_some, stemOf_append h.before_ne h.dot_notMem]

theorem EndsWith.slash_notMem (h : EndsWith p parts before after idles) : slash ∉ before ++ dot :: after :=
  not_mem_of_mem_split (h.split_eq ▸ List.mem_append_right _ List.mem_cons_self)

theorem EndsWith.bytes_eq (h : EndsWith p parts before after idles) :
    p.bytes = unsplit (parts ++ [before ++ [dot]]) ++ (after ++ idles.flatMap (slash :: ·)) := by
  have hmove : before ++ dot :: after = before ++ [dot] ++ after := by simp
  rw [← unsplit_split p.bytes, h.split_eq, List.append_cons, unsplit_append_eq (by simp), hmove, unsplit_concat_append,
    List.append_assoc]

theorem EndsWith.cutExtension_bytes (h : EndsWith p parts before after idles) :
    p.cutExtension.bytes = unsplit (parts ++ [before ++ [dot]]) ++
      (after ++ idles.flatMap (slash :: ·)).take (idles.flatMap (slash :: ·)).length := by
  have hlength : ∀ front tail : List UInt8, (front ++ (after ++ tail)).length - after.length = front.length + tail.length := by
    intro front tail
    simp only [List.length_append]
    omega
  rw [Path.cutExtension, h.extension?]
  dsimp only
  rw [h.bytes_eq, hlength, List.take_length_add_append]

theorem EndsWith.split_cutExtension (h : EndsWith p parts before after idles) {after' : Name} {idles' : List Name}
    (hsub : after' ⊆ after) (hidles' : AreIdle idles')
    (htake : (after ++ idles.flatMap (slash :: ·)).take (idles.flatMap (slash :: ·)).length =
      after' ++ idles'.flatMap (slash :: ·)) :
    split p.cutExtension.bytes = parts ++ (before ++ dot :: after') :: idles' := by
  have hmove : before ++ dot :: after' = before ++ [dot] ++ after' := by simp
  rw [h.cutExtension_bytes, htake, ← List.append_assoc, ← unsplit_concat_append, ← hmove, ← unsplit_append_eq (by simp),
    split_unsplit (by simp), ← List.append_cons]
  intro name hname
  rw [← List.append_cons] at hname
  obtain hname | hname := List.mem_append.1 hname
  · exact not_mem_of_mem_split (h.split_eq ▸ List.mem_append_left _ hname)
  · obtain rfl | hname := List.mem_cons.1 hname
    · intro hmem
      refine h.slash_notMem (List.mem_append.2 ?_)
      obtain hmem | hmem := List.mem_append.1 hmem
      · exact .inl hmem
      · exact .inr ((List.mem_cons.1 hmem).elim (fun heq => absurd heq (by decide)) fun hmem =>
          List.mem_cons_of_mem dot (hsub hmem))
    · obtain rfl | rfl := hidles' name hname <;> decide

/-- A path that is cut by the length of its extension ends with the same stem. It loses all of the extension if
nothing is behind its name. -/
theorem EndsWith.cutExtension (h : EndsWith p parts before after idles) :
    ∃ after' idles', split p.cutExtension.bytes = parts ++ (before ++ dot :: after') :: idles' ∧ AreIdle idles' ∧
      dot ∉ after' ∧ (idles = [] → idles' = []) ∧ (after' = [] ↔ idles = [] ∨ after = []) := by
  obtain ⟨tail, htail⟩ : ∃ tail : List UInt8, tail = idles.flatMap (slash :: ·) := ⟨_, rfl⟩
  by_cases hle : tail.length ≤ after.length
  · refine ⟨after.take tail.length, [], h.split_cutExtension (List.take_subset _ _) areIdle_nil ?_, areIdle_nil,
      fun hmem => h.dot_notMem (List.mem_of_mem_take hmem), fun _ => rfl, ?_⟩
    · rw [← htail, List.take_append_of_le_length hle, List.flatMap_nil, List.append_nil]
    · rw [List.take_eq_nil_iff, List.length_eq_zero_iff, htail, List.flatMap_eq_nil_iff]
      refine or_congr_left ⟨fun hnil => List.eq_nil_iff_forall_not_mem.2 fun part hpart => ?_, ?_⟩
      · exact absurd (hnil part hpart) (by simp)
      · rintro rfl part hpart
        exact absurd hpart List.not_mem_nil
  · obtain ⟨idles', hidles', htake⟩ := h.idle.take (tail.length - after.length)
    have hidles : idles ≠ [] := by
      rintro rfl
      exact hle (by simp [htail])
    refine ⟨after, idles', h.split_cutExtension (List.Subset.refl _) hidles' ?_, hidles', h.dot_notMem,
      fun hnil => absurd hnil hidles, .inr, fun hnil => hnil.resolve_left hidles⟩
    rw [← htail, List.take_append, List.take_of_length_le (by omega), ← htake, htail]

theorem setExtension_eq {name extension : Name} (h : split p.bytes = parts ++ name :: idles) (hne : name ≠ [])
    (hdot : name ≠ dotName) (hup : name ≠ dotDotName) (hidle : AreIdle idles) (hextension : extension ≠ []) :
    p.setExtension extension = ⟨unsplit (parts ++ [stemOf name ++ dot :: extension])⟩ := by
  have hreverse : (parts ++ name :: idles).reverse = idles.reverse ++ name :: parts.reverse := by simp
  have hidles : AreIdle idles.reverse := fun part hpart => hidle part (List.mem_reverse.1 hpart)
  rw [setExtension, fileName?_of_idle h hne hdot hup hidle]
  dsimp only
  rw [if_neg hextension, h, hreverse, dropIdle_append _ hidles hne hdot, List.drop_succ_cons, List.drop_zero,
    List.reverse_cons, List.reverse_reverse]

/-- A new extension stands behind the stem, and idle parts are gone. -/
theorem EndsWith.withExtension (h : EndsWith p parts before after idles) (hkept : before = [dot] → idles ≠ [])
    {extension : Name} (hextension : extension ≠ []) :
    p.withExtension extension = ⟨unsplit (parts ++ [before ++ dot :: extension])⟩ := by
  obtain ⟨after', idles', hsplit, hidles', hafter', -, hnil⟩ := h.cutExtension
  have hup : before ++ dot :: after' ≠ dotDotName := by
    intro heq
    obtain ⟨hdot, hnone⟩ := (concat_dot_eq_dotDotName h.before_ne).1 heq
    have hafter := (hnil.1 hnone).resolve_left (hkept hdot)
    exact h.ne_up ((concat_dot_eq_dotDotName h.before_ne).2 ⟨hdot, hafter⟩)
  rw [Path.withExtension, setExtension_eq hsplit (by simp) (concat_dot_ne_dotName h.before_ne after') hup hidles'
    hextension, stemOf_append h.before_ne hafter']

/-- Of a name with two dots before the extension and nothing behind it, the two dots are left. -/
theorem EndsWith.withExtension_up (h : EndsWith p parts [dot] after []) (extension : Name) :
    p.withExtension extension = ⟨unsplit (parts ++ [dotDotName])⟩ := by
  obtain ⟨after', idles', hsplit, -, -, hidles, hnil⟩ := h.cutExtension
  rw [hidles rfl, hnil.2 (.inl rfl)] at hsplit
  have hcut : p.cutExtension = ⟨unsplit (parts ++ [dotDotName])⟩ := by
    rw [← show [dot] ++ dot :: [] = dotDotName from rfl, ← hsplit, unsplit_split]
  rw [Path.withExtension, setExtension, fileName?_of_split_up hsplit, hcut]

end Path

open Folio.Path

section Target

variable {init : List Name} {before after : Name}

/-! ### Pages -/

theorem extensionName_ne_nil (format : OutputFormat) : format.extensionName ≠ [] := by
  cases format <;> decide

theorem dot_notMem_extensionName (format : OutputFormat) : dot ∉ format.extensionName := by
  cases format <;> decide

theorem slash_notMem_page (hslash : slash ∉ before ++ dot :: after) (format : OutputFormat) :
    slash ∉ before ++ dot :: format.extensionName := by
  intro hmem
  obtain hmem | hmem := List.mem_append.1 hmem
  · exact hslash (List.mem_append_left _ hmem)
  · revert hmem
    cases format <;> decide

theorem isName_page (hbefore : before ≠ []) (hslash : slash ∉ before ++ dot :: after) (format : OutputFormat) :
    isName (before ++ dot :: format.extensionName) = true := by
  obtain ⟨b, bs, rfl⟩ := List.exists_cons_of_ne_nil hbefore
  rw [isName_iff]
  have hlength : 3 ≤ (b :: bs ++ dot :: format.extensionName).length := by
    have hpos := List.length_pos_iff.2 (extensionName_ne_nil format)
    simp only [List.length_append, List.length_cons]
    omega
  refine ⟨by simp, ?_, ?_, ?_⟩
  · intro heq
    rw [heq] at hlength
    exact absurd hlength (by decide)
  · intro heq
    rw [heq] at hlength
    exact absurd hlength (by decide)
  · exact slash_notMem_page hslash format

section Relative

variable {r : Path} {parts idles : List Name}

theorem Path.EndsWith.join (h : EndsWith r parts before after idles) (hrelative : r.isAbsolute = false) (p : Path) :
    EndsWith (p.join r) (stemParts p ++ parts) before after idles := by
  refine ⟨?_, h.idle, h.before_ne, h.dot_notMem, h.ne_up⟩
  rw [split_join_relative p hrelative, h.split_eq, List.append_assoc]

theorem Path.EndsWith.replace (h : EndsWith r parts before after idles) (hrelative : r.isAbsolute = false) {name : Name}
    (hne : name ≠ []) (hslash : slash ∉ name) :
    split (unsplit (parts ++ [name])) = parts ++ [name] ∧
      (⟨unsplit (parts ++ [name])⟩ : Path).isAbsolute = false := by
  have hsplit : split (unsplit (parts ++ [name])) = parts ++ [name] := by
    refine split_unsplit (by simp) fun other hother => ?_
    obtain hother | hother := List.mem_append.1 hother
    · exact not_mem_of_mem_split (h.split_eq ▸ List.mem_append_left _ hother)
    · exact List.mem_singleton.1 hother ▸ hslash
  refine ⟨hsplit, ?_⟩
  rw [← Bool.not_eq_true, isAbsolute_iff] at hrelative ⊢
  rintro ⟨first, more, heq⟩
  rw [hsplit] at heq
  cases parts with
  | nil => exact hne (List.cons.inj heq).1
  | cons part parts =>
    obtain ⟨rfl, -⟩ := List.cons.inj heq
    obtain ⟨next, rest, hrest⟩ := List.exists_cons_of_ne_nil
      (by simp : parts ++ (before ++ dot :: after) :: idles ≠ [])
    exact hrelative ⟨next, rest, by rw [h.split_eq, List.cons_append, hrest]⟩

theorem Path.EndsWith.join_unsplit (h : EndsWith r parts before after idles) (hrelative : r.isAbsolute = false)
    (p : Path) {name : Name} (hne : name ≠ []) (hslash : slash ∉ name) :
    p.join ⟨unsplit (parts ++ [name])⟩ = ⟨unsplit (stemParts p ++ parts ++ [name])⟩ := by
  obtain ⟨hsplit, hnew⟩ := h.replace hrelative hne hslash
  have hjoin := split_join_relative p hnew
  rw [hsplit, ← List.append_assoc] at hjoin
  rw [← hjoin, unsplit_split]

/-- The place of a page: the parts of the document's path stay, and its name gets another extension. -/
theorem targetPath_of_endsWith (h : EndsWith r parts before after idles) (hrelative : r.isAbsolute = false)
    (hkept : before = [dot] → idles ≠ []) (outputDir : Path) (format : OutputFormat) :
    targetPath r outputDir format = outputDir.join ⟨unsplit (parts ++ [before ++ dot :: format.extensionName])⟩ := by
  rw [targetPath, (h.join hrelative outputDir).withExtension hkept (extensionName_ne_nil format),
    h.join_unsplit hrelative outputDir (by simp) (slash_notMem_page h.slash_notMem format)]

theorem targetPath_of_endsWith_up (h : EndsWith r parts [dot] after []) (hrelative : r.isAbsolute = false)
    (outputDir : Path) (format : OutputFormat) :
    targetPath r outputDir format = outputDir.join ⟨unsplit (parts ++ [dotDotName])⟩ := by
  rw [targetPath, (h.join hrelative outputDir).withExtension_up, h.join_unsplit hrelative outputDir (by decide)
    (by decide)]

end Relative

theorem endsWith_of_isName (hinit : ∀ name ∈ init, isName name = true) (hlast : isName (before ++ dot :: after) = true)
    (hbefore : before ≠ []) (h : dot ∉ after) :
    EndsWith ⟨unsplit (init ++ [before ++ dot :: after])⟩ init before after [] ∧
      (⟨unsplit (init ++ [before ++ dot :: after])⟩ : Path).isAbsolute = false := by
  obtain ⟨hne, -, hup, hslash⟩ := isName_iff.1 hlast
  have hparts := areParts_concat hinit hne hslash
  exact ⟨⟨split_unsplit hparts.ne_nil hparts.slashless, areIdle_nil, hbefore, h, hup⟩, isAbsolute_unsplit hparts⟩

/-- The place of a page, for a document whose name has an extension and more than a dot before it. -/
theorem targetPath_eq (outputDir : Path) (format : OutputFormat) (hinit : ∀ name ∈ init, isName name = true)
    (hlast : isName (before ++ dot :: after) = true) (hbefore : before ≠ []) (hdot : before ≠ [dot])
    (h : dot ∉ after) :
    targetPath ⟨unsplit (init ++ [before ++ dot :: after])⟩ outputDir format =
      outputDir.join ⟨unsplit (init ++ [before ++ dot :: format.extensionName])⟩ := by
  obtain ⟨hends, hrelative⟩ := endsWith_of_isName hinit hlast hbefore h
  exact targetPath_of_endsWith hends hrelative (fun heq => absurd heq hdot) outputDir format

theorem targetPath_up (outputDir : Path) (format : OutputFormat) (hinit : ∀ name ∈ init, isName name = true)
    (hlast : isName ([dot] ++ dot :: after) = true) (h : dot ∉ after) :
    targetPath ⟨unsplit (init ++ [[dot] ++ dot :: after])⟩ outputDir format =
      outputDir.join ⟨unsplit (init ++ [dotDotName])⟩ := by
  obtain ⟨hends, hrelative⟩ := endsWith_of_isName hinit hlast (by simp) h
  exact targetPath_of_endsWith_up hends hrelative outputDir format

end Target
end Folio
