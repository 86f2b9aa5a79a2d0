import Mathlib.Data.List.Basic
import Folio.Proofs.FileSystem.WellFormed

/-!
# Folio.Proofs.Path

Paths as their parts between slashes.

* `split_append`, `split_unsplit`: texts and parts determine each other.
* `stemParts`, `split_join`: the parts of a path with names behind it.
* `fileName?_of_split`, `extension?_join`: the last part of a path is its file name, unless it is dots.
* `below`: the path of an entry that is reached by some names.
-/

namespace Folio
namespace Path

theorem split_append (x y : List UInt8) : split (x ++ slash :: y) = split x ++ split y := by
  induction x with
  | nil => simp [split]
  | cons b bs ih =>
    rw [List.cons_append, split, split, ih]
    split
    · rfl
    · cases hs : split bs with
      | nil => exact absurd hs (split_ne_nil bs)
      | cons first rest => rfl

theorem split_of_not_mem {name : Name} (h : slash ∉ name) : split name = [name] := by
  induction name with
  | nil => rfl
  | cons b bs ih =>
    rw [List.mem_cons, not_or] at h
    rw [split, if_neg (Ne.symm h.1), ih h.2]

theorem split_unsplit {names : List Name} (hne : names ≠ []) (h : ∀ name ∈ names, slash ∉ name) :
    split (unsplit names) = names := by
  induction names with
  | nil => exact absurd rfl hne
  | cons name names ih =>
    have hname := split_of_not_mem (h name List.mem_cons_self)
    cases names with
    | nil => exact hname
    | cons next names =>
      rw [unsplit, split_append, hname, ih (by simp) fun n hn => h n (List.mem_cons_of_mem name hn)]
      · rfl
      · simp

theorem unsplit_cons {name : Name} {names : List Name} (hne : names ≠ []) :
    unsplit (name :: names) = name ++ slash :: unsplit names := by
  obtain ⟨next, more, rfl⟩ := List.exists_cons_of_ne_nil hne
  rfl

theorem unsplit_append {names rest : List Name} (hne : names ≠ []) (hrest : rest ≠ []) :
    unsplit (names ++ rest) = unsplit names ++ slash :: unsplit rest := by
  induction names with
  | nil => exact absurd rfl hne
  | cons name names ih =>
    rw [List.cons_append, unsplit_cons (by simp [hrest])]
    by_cases hnames : names = []
    · rw [hnames]
      rfl
    · rw [ih hnames, unsplit_cons hnames, List.append_assoc, List.cons_append]

theorem eq_of_split_eq {p q : Path} (h : split p.bytes = split q.bytes) : p = q := by
  have hbytes := congrArg unsplit h
  rw [unsplit_split, unsplit_split] at hbytes
  cases p
  cases q
  exact congrArg Path.mk hbytes

/-- Names that may stand between slashes at the end of a path. -/
structure AreParts (names : List Name) : Prop where
  ne_nil : names ≠ []
  nonempty : ∀ name ∈ names, name ≠ []
  slashless : ∀ name ∈ names, slash ∉ name

/-- The parts of a path that stay when names are put behind it. -/
def stemParts (p : Path) : List Name :=
  if p.bytes = [] ∨ p.bytes.getLast? = some slash then (split p.bytes).dropLast else split p.bytes

theorem split_eq_stemParts (p : Path) : split p.bytes = stemParts p ∨ split p.bytes = stemParts p ++ [[]] := by
  rw [stemParts]
  by_cases h : p.bytes = [] ∨ p.bytes.getLast? = some slash
  · rw [if_pos h]
    right
    obtain h | h := h
    · rw [h]
      rfl
    · obtain ⟨x, hx⟩ := List.getLast?_eq_some_iff.1 h
      rw [hx, split_append]
      simp [split]
  · rw [if_neg h]
    exact .inl rfl

/-- A path starts at the root when nothing stands before its first slash. -/
theorem isAbsolute_iff {p : Path} : p.isAbsolute = true ↔ ∃ name names, split p.bytes = [] :: name :: names := by
  rw [isAbsolute]
  cases hp : p.bytes with
  | nil => simp [split]
  | cons b bs =>
    obtain ⟨name, names, hsplit⟩ := List.exists_cons_of_ne_nil (split_ne_nil bs)
    rw [split, hsplit]
    by_cases hb : b = slash
    · simp [hb]
    · simp [hb]

theorem isAbsolute_of_split {p : Path} {name : Name} {names : List Name} (h : split p.bytes = name :: names)
    (hne : name ≠ []) : p.isAbsolute = false := by
  rw [← Bool.not_eq_true, isAbsolute_iff, h]
  rintro ⟨other, others, heq⟩
  exact hne (List.cons.inj heq).1

theorem isAbsolute_unsplit {names : List Name} (h : AreParts names) : (⟨unsplit names⟩ : Path).isAbsolute = false := by
  have hsplit := split_unsplit h.ne_nil h.slashless
  obtain ⟨name, names, rfl⟩ := List.exists_cons_of_ne_nil h.ne_nil
  exact isAbsolute_of_split hsplit (h.nonempty name List.mem_cons_self)

theorem bytes_join {p q : Path} (h : q.isAbsolute = false) :
    (p.join q).bytes =
      if p.bytes = [] ∨ p.bytes.getLast? = some slash then p.bytes ++ q.bytes else p.bytes ++ slash :: q.bytes := by
  rw [join, if_neg (by rw [h]; simp)]
  split <;> rfl

theorem split_join_relative (p : Path) {q : Path} (h : q.isAbsolute = false) :
    split (p.join q).bytes = stemParts p ++ split q.bytes := by
  rw [bytes_join h, stemParts]
  by_cases hp : p.bytes = [] ∨ p.bytes.getLast? = some slash
  · rw [if_pos hp, if_pos hp]
    obtain hp | hp := hp
    · rw [hp, List.nil_append]
      rfl
    · obtain ⟨x, hx⟩ := List.getLast?_eq_some_iff.1 hp
      have hstem : split (x ++ [slash]) = split x ++ [[]] := by
        rw [split_append]
        rfl
      rw [hx, hstem, List.dropLast_concat, List.append_assoc, List.singleton_append, split_append]
  · rw [if_neg hp, if_neg hp, split_append]

theorem split_join (p : Path) {names : List Name} (h : AreParts names) :
    split (p.join ⟨unsplit names⟩).bytes = stemParts p ++ names := by
  rw [split_join_relative p (isAbsolute_unsplit h), split_unsplit h.ne_nil h.slashless]

theorem isAbsolute_join_relative (p : Path) {q : Path} (h : q.isAbsolute = false) :
    (p.join q).isAbsolute = p.isAbsolute := by
  rw [isAbsolute, bytes_join h, isAbsolute]
  cases hp : p.bytes with
  | nil =>
    rw [isAbsolute] at h
    simpa using h
  | cons b bs => split <;> rfl

theorem isAbsolute_join (p : Path) {names : List Name} (h : AreParts names) :
    (p.join ⟨unsplit names⟩).isAbsolute = p.isAbsolute :=
  isAbsolute_join_relative p (isAbsolute_unsplit h)

/-! ### File names -/

/-- Parts that count for nothing where they do not stand first. -/
def AreIdle (parts : List Name) : Prop :=
  ∀ part ∈ parts, part = [] ∨ part = dotName

theorem areIdle_nil : AreIdle [] :=
  fun _ hpart => absurd hpart List.not_mem_nil

theorem AreIdle.filterMap {parts : List Name} (h : AreIdle parts) : parts.filterMap Component.ofPart? = [] :=
  List.filterMap_eq_nil_iff.2 fun part hpart => if_pos (h part hpart)

/-- The last component of a path, when one of its parts means something and those behind it do not. -/
theorem getLast?_components {p : Path} {parts idles : List Name} {name : Name}
    (h : split p.bytes = parts ++ name :: idles) (hne : name ≠ []) (hdot : name ≠ dotName) (hidle : AreIdle idles) :
    p.components.getLast? = Component.ofPart? name := by
  have hpart : ∃ c, Component.ofPart? name = some c := by
    rw [Component.ofPart?, if_neg (by simp [hne, hdot])]
    split <;> exact ⟨_, rfl⟩
  obtain ⟨c, hc⟩ := hpart
  rw [components, h]
  cases parts with
  | nil => simp [Component.ofFirst?, isAbsolute_of_split h hne, hdot, hc, hidle.filterMap]
  | cons first more => simp [List.filterMap_append, hc, hidle.filterMap]

theorem fileName?_of_idle {p : Path} {parts idles : List Name} {name : Name}
    (h : split p.bytes = parts ++ name :: idles) (hne : name ≠ []) (hdot : name ≠ dotName) (hup : name ≠ dotDotName)
    (hidle : AreIdle idles) : p.fileName? = some name := by
  rw [fileName?, getLast?_components h hne hdot hidle, Component.ofPart?, if_neg (by simp [hne, hdot]), if_neg hup]

theorem fileName?_of_split {p : Path} {parts : List Name} {name : Name} (h : split p.bytes = parts ++ [name])
    (hne : name ≠ []) (hdot : name ≠ dotName) (hup : name ≠ dotDotName) : p.fileName? = some name :=
  fileName?_of_idle h hne hdot hup areIdle_nil

theorem fileName?_of_split_up {p : Path} {parts : List Name} (h : split p.bytes = parts ++ [dotDotName]) :
    p.fileName? = none := by
  rw [fileName?, getLast?_components h (by decide) (by decide) areIdle_nil]
  rfl

/-! ### Entries below a directory -/

theorem isName_iff {name : Name} :
    isName name = true ↔ name ≠ [] ∧ name ≠ dotName ∧ name ≠ dotDotName ∧ slash ∉ name := by
  simp [isName, and_assoc]

theorem areParts_of_isName {names : List Name} (hne : names ≠ []) (h : ∀ name ∈ names, isName name = true) :
    AreParts names :=
  ⟨hne, fun name hname => (isName_iff.1 (h name hname)).1, fun name hname => (isName_iff.1 (h name hname)).2.2.2⟩

theorem areParts_concat {init : List Name} {last : Name} (hinit : ∀ name ∈ init, isName name = true)
    (hne : last ≠ []) (hslash : slash ∉ last) : AreParts (init ++ [last]) := by
  refine ⟨by simp, fun name hname => ?_, fun name hname => ?_⟩
  · obtain hname | hname := List.mem_append.1 hname
    · exact (isName_iff.1 (hinit name hname)).1
    · exact List.mem_singleton.1 hname ▸ hne
  · obtain hname | hname := List.mem_append.1 hname
    · exact (isName_iff.1 (hinit name hname)).2.2.2
    · exact List.mem_singleton.1 hname ▸ hslash

/-- The path of an entry that is reached by these names. -/
def below (p : Path) (names : List Name) : Path :=
  names.foldl (fun p name => p.join ⟨name⟩) p

theorem below_concat (p : Path) (names : List Name) (name : Name) :
    p.below (names ++ [name]) = (p.below names).join ⟨name⟩ := by
  rw [below, List.foldl_append]
  rfl

theorem below_eq_join (p : Path) {names : List Name} (hne : names ≠ []) (h : ∀ name ∈ names, isName name = true) :
    p.below names = p.join ⟨unsplit names⟩ := by
  induction names using List.reverseRecOn with
  | nil => exact absurd rfl hne
  | append_singleton names name ih =>
    rw [below_concat]
    by_cases hnil : names = []
    · rw [hnil]
      rfl
    · have hinit : ∀ n ∈ names, isName n = true := fun n hn => h n (List.mem_append_left _ hn)
      have hlast : ∀ n ∈ [name], isName n = true := fun n hn => h n (List.mem_append_right _ hn)
      have hsplit := split_join p (areParts_of_isName hnil hinit)
      rw [← ih hnil hinit] at hsplit
      have hstem : stemParts (p.below names) = stemParts p ++ names := by
        obtain heq | heq := split_eq_stemParts (p.below names)
        · rw [← heq, hsplit]
        · -- the last part is a name and not empty
          obtain ⟨init, last, rfl⟩ := (List.eq_nil_or_concat names).resolve_left hnil
          rw [hsplit, List.concat_eq_append, ← List.append_assoc] at heq
          have hlast' := (List.append_inj' heq rfl).2
          have hne' := (isName_iff.1 (hinit last (by simp))).1
          exact absurd (by simpa using hlast') hne'
      apply eq_of_split_eq
      rw [split_join p (areParts_of_isName hne h)]
      have hjoin := split_join (p.below names) (areParts_of_isName (by simp) hlast)
      rw [unsplit, hstem, List.append_assoc] at hjoin
      exact hjoin

end Path
end Folio
