import Folio.Proofs.Path
import Folio.Proofs.FileSystem.Access

/-!
# Folio.Proofs.FileSystem.Descent

Paths with names behind them.

* `reaches_of_follow`: a path that leads somewhere leads to a directory on its way, and from there on.
* `follow_names`: below a directory without links, names lead straight to the entry.
* `follow_existing`, `follow_standing`: so they do to an entry that is there.
* `resolve_join`, `resolve_standing`: where a path with names behind it leads.
-/

namespace Folio
namespace FileSystem

variable {pages : Location → Prop} {fs fs' : FileSystem}

theorem resolve_of_locate {through : Bool} {p : Path} {l : Location} (h : fs.locate through p = .ok l) :
    fs.resolve through p = .ok l := by
  rw [locate] at h
  split at h
  · cases h
  · exact h

/-- A path that is accepted in one table is accepted in any other. -/
theorem locate_eq_resolve {through through' : Bool} {p : Path} {l : Location} (h : fs'.locate through' p = .ok l) :
    fs.locate through p = fs.resolve through p := by
  rw [locate] at h ⊢
  split at h
  · cases h
  · rfl

theorem resolve_of_grows (h : Grows pages fs fs') {through : Bool} {p : Path} {l : Location}
    (hl : fs.resolve through p = .ok l) : fs'.resolve through p = .ok l := by
  rw [resolve] at hl ⊢
  rw [h.current]
  exact follow_of_grows h hl

/-- After some parts, the way goes on from `k`, and `links'` more links may be followed. -/
def Reaches (fs : FileSystem) (links : Nat) (at_ : Location) (parts : List Name) (links' : Nat) (k : Location) :
    Prop :=
  ∀ through more, through = true ∨ more ≠ [] →
    fs.follow through links at_ (parts ++ more) = fs.follow through links' k more

/-- A first step on a way does not depend on what comes behind. -/
theorem Reaches.of_step {links links₁ links' : Nat} {at_ at₁ k : Location} {parts parts₁ : List Name}
    (h : fs.Reaches links₁ at₁ parts₁ links' k)
    (hstep : ∀ through more, through = true ∨ more ≠ [] →
      fs.follow through links at_ (parts ++ more) = fs.follow through links₁ at₁ (parts₁ ++ more)) :
    fs.Reaches links at_ parts links' k :=
  fun through more hgo => (hstep through more hgo).trans (h through more hgo)

theorem directory_of_follow {through : Bool} {links : Nat} {at_ l : Location} {parts : List Name} (hne : parts ≠ [])
    (h : fs.follow through links at_ parts = .ok l) : fs.get? at_ = some .directory := by
  obtain ⟨part, rest, rfl⟩ := List.exists_cons_of_ne_nil hne
  by_contra hnot
  rw [follow_stuck hnot] at h
  cases h

theorem reaches_of_follow {through : Bool} {links : Nat} {at_ l : Location} {parts more : List Name}
    (hmore : more ≠ [] ∨ through = true ∧ fs.get? l = some .directory)
    (h : fs.follow through links at_ (parts ++ more) = .ok l) :
    ∃ links' k, fs.get? k = some .directory ∧ fs.Reaches links at_ parts links' k := by
  have hgo : through = true ∨ more ≠ [] := hmore.elim .inr fun hm => .inl hm.1
  fun_induction follow fs true links at_ parts with
  | case1 links at_ =>
    refine ⟨links, at_, ?_, fun _ _ _ => rfl⟩
    rw [List.nil_append] at h
    obtain hne | ⟨-, hdir⟩ := hmore
    · exact directory_of_follow hne h
    · by_cases hne : more = []
      · rw [hne, follow_nil] at h
        cases h
        exact hdir
      · exact directory_of_follow hne h
  | case2 links at_ part rest hdir hidle ih =>
    have hstep : ∀ t m, t = true ∨ m ≠ [] →
        fs.follow t links at_ (part :: rest ++ m) = fs.follow t links at_ (rest ++ m) :=
      fun t m _ => follow_idle hdir hidle
    rw [hstep through more hgo] at h
    obtain ⟨links', k, hk, hreach⟩ := ih h
    exact ⟨links', k, hk, hreach.of_step hstep⟩
  | case3 links at_ rest hdir hidle ih =>
    have hstep : ∀ t m, t = true ∨ m ≠ [] →
        fs.follow t links at_ (Path.dotDotName :: rest ++ m) = fs.follow t links at_.dropLast (rest ++ m) :=
      fun t m _ => follow_up hdir
    rw [hstep through more hgo] at h
    obtain ⟨links', k, hk, hreach⟩ := ih h
    exact ⟨links', k, hk, hreach.of_step hstep⟩
  | case4 links at_ part rest hdir hidle hup hlong =>
    rw [List.cons_append, follow_long hdir hidle hup hlong] at h
    cases h
  | case5 links at_ part hdir hidle hup hshort hnone =>
    rw [List.cons_append, follow_missing hdir ⟨hidle, hup, hshort⟩ hnone, List.nil_append] at h
    split at h
    · next hnil =>
      -- the way ends at something that is missing
      cases h
      obtain hne | ⟨-, hdir'⟩ := hmore
      · exact absurd hnil hne
      · rw [hnone] at hdir'
        cases hdir'
    · cases h
  | case6 links at_ part rest hdir hidle hup hshort hnone hrest =>
    rw [List.cons_append, follow_missing hdir ⟨hidle, hup, hshort⟩ hnone, if_neg] at h
    · cases h
    · simp [hrest]
  | case7 links at_ part rest hdir hidle hup hshort target hlink hlast => cases hlast.2
  | case8 at_ part rest hdir hidle hup hshort target hlink hlast =>
    rw [List.cons_append, follow_link hdir ⟨hidle, hup, hshort⟩ hlink, if_neg] at h
    · cases h
    · rintro ⟨hnil, hthrough⟩
      obtain hgo | hgo := hgo
      · rw [hgo] at hthrough
        cases hthrough
      · exact hgo (List.append_eq_nil_iff.1 hnil).2
  | case9 at_ part rest hdir hidle hup hshort target hlink hlast links ih =>
    have hstep : ∀ t m, t = true ∨ m ≠ [] → fs.follow t (links + 1) at_ (part :: rest ++ m) =
        fs.follow t links (linkStart at_ target) (Path.split target.bytes ++ rest ++ m) := by
      intro t m hm
      have hon : ¬ (rest ++ m = [] ∧ t = false) := by
        rintro ⟨hnil, rfl⟩
        exact hm.resolve_left Bool.false_ne_true (List.append_eq_nil_iff.1 hnil).2
      rw [List.cons_append, follow_link hdir ⟨hidle, hup, hshort⟩ hlink, if_neg hon, List.append_assoc]
    rw [hstep through more hgo] at h
    obtain ⟨links', k, hk, hreach⟩ := ih h
    exact ⟨links', k, hk, hreach.of_step hstep⟩
  | case10 links at_ part rest hdir hidle hup hshort e hlink he ih =>
    have hstep : ∀ t m, t = true ∨ m ≠ [] →
        fs.follow t links at_ (part :: rest ++ m) = fs.follow t links (at_ ++ [part]) (rest ++ m) :=
      fun t m _ => follow_entry hdir ⟨hidle, hup, hshort⟩ he hlink
    rw [hstep through more hgo] at h
    obtain ⟨links', k, hk, hreach⟩ := ih h
    exact ⟨links', k, hk, hreach.of_step hstep⟩
  | case11 links at_ part rest hdir =>
    rw [List.cons_append, follow_stuck hdir] at h
    cases h

/-! ### Names -/

/-- A name names an entry, or it is too long to name anything. -/
theorem namesEntry_or_long {at_ : Location} {name : Name} (hdir : fs.get? at_ = some .directory)
    (hname : isName name = true) : NamesEntry name ∨ maxNameLength < name.length ∧
      ∀ through links rest, fs.follow through links at_ (name :: rest) = .error .nameTooLong := by
  obtain ⟨hne, hdot, hup, -⟩ := Path.isName_iff.1 hname
  have hidle : ¬ (name = [] ∨ name = Path.dotName) := by simp [hne, hdot]
  by_cases hlong : maxNameLength < name.length
  · exact .inr ⟨hlong, fun _ _ _ => follow_long hdir hidle hup hlong⟩
  · exact .inl ⟨hidle, hup, hlong⟩

/-- Names lead straight on where no link is met that would be followed. -/
theorem follow_straight {through : Bool} {links : Nat} {k l : Location} {names : List Name}
    (hnames : ∀ name ∈ names, isName name = true)
    (hlinks : ∀ init more, names = init ++ more → init ≠ [] → through = true ∨ more ≠ [] →
      ∀ target, fs.get? (k ++ init) ≠ some (.link target))
    (h : fs.follow through links k names = .ok l) : l = k ++ names := by
  induction names generalizing k with
  | nil =>
    rw [follow_nil] at h
    cases h
    simp
  | cons name rest ih =>
    have hdir := directory_of_follow (by simp) h
    obtain hname | ⟨-, hlong⟩ := namesEntry_or_long hdir (hnames name List.mem_cons_self)
    swap
    · rw [hlong] at h
      cases h
    -- Where nothing stands under a name, it is the last one. Only the last one may be a link, if it is not followed.
    cases he : fs.get? (k ++ [name]) with
    | none =>
      rw [follow_missing hdir hname he] at h
      split at h
      · next hnil =>
        cases h
        rw [hnil]
      · cases h
    | some e =>
      by_cases hlast : rest = [] ∧ through = false
      · obtain ⟨rfl, rfl⟩ := hlast
        by_cases hlink : ∃ target, e = .link target
        · obtain ⟨target, rfl⟩ := hlink
          rw [follow_link hdir hname he, if_pos ⟨rfl, rfl⟩] at h
          cases h
          rfl
        · rw [follow_entry hdir hname he fun target heq => hlink ⟨target, heq⟩, follow_nil] at h
          cases h
          rfl
      · have hon : through = true ∨ rest ≠ [] := by
          by_contra hnot
          rw [not_or, not_not, Bool.not_eq_true] at hnot
          exact hlast ⟨hnot.2, hnot.1⟩
        have hlink : ∀ target, e ≠ .link target := by
          rintro target rfl
          exact hlinks [name] rest rfl (by simp) hon target he
        rw [follow_entry hdir hname he hlink] at h
        have hl := ih (fun n hn => hnames n (List.mem_cons_of_mem name hn)) (fun init more heq hne' hgo target => by
          rw [List.append_assoc]
          exact hlinks (name :: init) more (by rw [heq]; rfl) (by simp) hgo target) h
        rw [hl, List.append_assoc]
        rfl

theorem follow_names {through : Bool} {links : Nat} {k l : Location} {names : List Name}
    (hnames : ∀ name ∈ names, isName name = true)
    (hlinks : ∀ more, more ≠ [] → ∀ target, fs.get? (k ++ more) ≠ some (.link target))
    (h : fs.follow through links k names = .ok l) : l = k ++ names :=
  follow_straight hnames (fun init _ _ hne _ target => hlinks init hne target) h

/-- Without the way up, and without links, a way leads down. -/
theorem follow_down {through : Bool} {links : Nat} {l k : Location} {parts : List Name} (hup : Path.dotDotName ∉ parts)
    (hlinks : ∀ more, more ≠ [] → ∀ target, fs.get? (l ++ more) ≠ some (.link target))
    (h : fs.follow through links l parts = .ok k) : l <+: k := by
  induction parts generalizing l with
  | nil =>
    rw [follow_nil] at h
    cases h
    exact List.prefix_rfl
  | cons part rest ih =>
    rw [List.mem_cons, not_or] at hup
    have hdir := directory_of_follow (by simp) h
    by_cases hidle : part = [] ∨ part = Path.dotName
    · rw [follow_idle hdir hidle] at h
      exact ih hup.2 hlinks h
    by_cases hlong : maxNameLength < part.length
    · rw [follow_long hdir hidle (Ne.symm hup.1) hlong] at h
      cases h
    have hname : NamesEntry part := ⟨hidle, Ne.symm hup.1, hlong⟩
    cases he : fs.get? (l ++ [part]) with
    | none =>
      rw [follow_missing hdir hname he] at h
      split at h
      · cases h
        exact List.prefix_append l [part]
      · cases h
    | some e =>
      have hnot : ∀ target, e ≠ .link target := fun target heq => hlinks [part] (by simp) target (heq ▸ he)
      rw [follow_entry hdir hname he hnot] at h
      refine (List.prefix_append l [part]).trans (ih hup.2 (fun more hmore target => ?_) h)
      rw [List.append_assoc]
      exact hlinks ([part] ++ more) (by simp) target

theorem follow_existing (hwf : fs.WellFormed) {links : Nat} {k l : Location} {names : List Name} {e : Entry}
    (hnames : ∀ name ∈ names, isName name = true) (he : fs.get? (k ++ names) = some e)
    (h : fs.follow false links k names = .ok l) : l = k ++ names := by
  refine follow_straight hnames ?_ h
  intro init more heq _ hgo target
  have hmore : more ≠ [] := hgo.resolve_left (by simp)
  rw [heq, ← List.append_assoc] at he
  rw [hwf.directory_of_append hmore he]
  simp

/-- Names that lead to an entry are found, unless one of them is too long. A link at their end is not followed. -/
theorem follow_standing (hwf : fs.WellFormed) {through : Bool} {links : Nat} {k : Location} {names : List Name}
    {e : Entry} (hnames : ∀ name ∈ names, isName name = true) (he : fs.get? (k ++ names) = some e)
    (hlink : through = true → ∀ target, e ≠ .link target) :
    fs.follow through links k names = .ok (k ++ names) ∨
      fs.follow through links k names = .error .nameTooLong ∧ ∃ name ∈ names, maxNameLength < name.length := by
  induction names generalizing k with
  | nil => exact .inl (by rw [follow_nil, List.append_nil])
  | cons name rest ih =>
    have hdir : fs.get? k = some .directory := hwf.directory_of_append (by simp) he
    have happ : k ++ name :: rest = k ++ [name] ++ rest := by simp
    rw [happ] at he ⊢
    obtain hname | ⟨hlong, hfails⟩ := namesEntry_or_long hdir (hnames name List.mem_cons_self)
    swap
    · exact .inr ⟨hfails through links rest, name, List.mem_cons_self, hlong⟩
    by_cases hend : rest = [] ∧ ∃ target, e = .link target
    · -- the names end at a link
      obtain ⟨rfl, target, rfl⟩ := hend
      rw [List.append_nil] at he ⊢
      have hshort : through = false := by
        rw [← Bool.not_eq_true]
        exact fun hthrough => hlink hthrough target rfl
      rw [follow_link hdir hname he, if_pos ⟨rfl, hshort⟩]
      exact .inl rfl
    · have hhere : ∃ d, fs.get? (k ++ [name]) = some d ∧ ∀ target, d ≠ .link target := by
        by_cases hrest : rest = []
        · rw [hrest, List.append_nil] at he
          exact ⟨e, he, fun target heq => hend ⟨hrest, target, heq⟩⟩
        · exact ⟨.directory, hwf.directory_of_append hrest he, fun _ heq => by cases heq⟩
      obtain ⟨d, hd, hdlink⟩ := hhere
      rw [follow_entry hdir hname hd hdlink]
      obtain hok | ⟨hfails, long, hmem, hlong⟩ := ih (fun n hn => hnames n (List.mem_cons_of_mem name hn)) he
      · exact .inl hok
      · exact .inr ⟨hfails, long, List.mem_cons_of_mem name hmem, hlong⟩

/-- A path with names behind it leads to a directory first. -/
theorem resolve_join {through : Bool} {p : Path} {names : List Name} {l : Location} (hnames : Path.AreParts names)
    (h : fs.resolve through (p.join ⟨Path.unsplit names⟩) = .ok l) :
    ∃ links k, fs.resolve true p = .ok k ∧ fs.get? k = some .directory ∧
      fs.follow through links k names = .ok l := by
  rw [resolve, Path.split_join p hnames, Path.isAbsolute_join p hnames] at h
  obtain ⟨links, k, hdir, hreach⟩ := reaches_of_follow (.inl hnames.ne_nil) h
  refine ⟨links, k, ?_, hdir, ?_⟩
  · rw [resolve]
    obtain hsplit | hsplit := Path.split_eq_stemParts p
    · rw [hsplit, ← List.append_nil (Path.stemParts p), hreach true [] (.inl rfl), follow_nil]
    · rw [hsplit, hreach true [[]] (.inl rfl), follow_idle hdir (.inl rfl), follow_nil]
  · rw [← hreach through names (.inr hnames.ne_nil)]
    exact h

/-- Where a path leads to a directory, a path with names behind it leads to what stands there. -/
theorem resolve_standing (hwf : fs.WellFormed) {through : Bool} {p : Path} {k : Location} {names : List Name}
    {e : Entry} (hp : fs.resolve true p = .ok k) (hne : names ≠ []) (hnames : ∀ name ∈ names, isName name = true)
    (he : fs.get? (k ++ names) = some e) (hlink : through = true → ∀ target, e ≠ .link target) :
    fs.resolve through (p.join ⟨Path.unsplit names⟩) = .ok (k ++ names) ∨
      fs.resolve through (p.join ⟨Path.unsplit names⟩) = .error .nameTooLong ∧
        ∃ name ∈ names, maxNameLength < name.length := by
  have hparts := Path.areParts_of_isName hne hnames
  have hk : fs.get? k = some .directory := hwf.directory_of_append hne he
  rw [resolve] at hp
  rw [resolve, Path.split_join p hparts, Path.isAbsolute_join p hparts]
  have hreach : ∃ links, fs.Reaches maxLinks (if p.isAbsolute then [] else fs.current) (Path.stemParts p) links k := by
    obtain hsplit | hsplit := Path.split_eq_stemParts p
    · rw [hsplit, ← List.append_nil (Path.stemParts p)] at hp
      obtain ⟨links, k', -, hreach⟩ := reaches_of_follow (.inr ⟨rfl, hk⟩) hp
      rw [hreach true [] (.inl rfl), follow_nil] at hp
      cases hp
      exact ⟨links, hreach⟩
    · rw [hsplit] at hp
      obtain ⟨links, k', hdir, hreach⟩ := reaches_of_follow (.inl (by simp)) hp
      rw [hreach true [[]] (.inl rfl), follow_idle hdir (.inl rfl), follow_nil] at hp
      cases hp
      exact ⟨links, hreach⟩
  obtain ⟨links, hreach⟩ := hreach
  rw [hreach through names (.inr hne)]
  exact follow_standing hwf hnames he hlink

end FileSystem
end Folio
