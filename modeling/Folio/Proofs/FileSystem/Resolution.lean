import Folio.FileSystem.Access
import Folio.Proofs.FileSystem.Growth

/-!
# Folio.Proofs.FileSystem.Resolution

Where paths lead while a table grows.

* `follow_of_grows`: a path that leads somewhere still leads there afterwards.
* `follow_error_of_grows`: a path that fails still fails so, unless something was missing.
* `not_link_of_follow`, `isPlaced_of_follow`: what is at the end of a path, and where something new may stand.
* `reach`, `place`: where a path leads once the directories on its way have been made.
-/

namespace Folio
namespace FileSystem

/-- A part of a path that names an entry. -/
structure NamesEntry (part : Name) : Prop where
  notIdle : ¬ (part = [] ∨ part = Path.dotName)
  notUp : part ≠ Path.dotDotName
  short : ¬ maxNameLength < part.length

section Steps

variable {fs : FileSystem} {through : Bool} {links : Nat} {at_ : Location} {part : Name} {rest : List Name}

theorem follow_nil : fs.follow through links at_ [] = .ok at_ := by
  rw [follow]

theorem follow_idle (hat : fs.get? at_ = some .directory) (h : part = [] ∨ part = Path.dotName) :
    fs.follow through links at_ (part :: rest) = fs.follow through links at_ rest := by
  rw [follow.eq_def]
  simp only [hat, if_pos h]

theorem follow_up (hat : fs.get? at_ = some .directory) :
    fs.follow through links at_ (Path.dotDotName :: rest) = fs.follow through links at_.dropLast rest := by
  have hidle : ¬ (Path.dotDotName = [] ∨ Path.dotDotName = Path.dotName) := by decide
  rw [follow.eq_def]
  simp only [hat, if_neg hidle, if_pos]

theorem follow_long (hat : fs.get? at_ = some .directory) (hidle : ¬ (part = [] ∨ part = Path.dotName))
    (hup : part ≠ Path.dotDotName) (hlong : maxNameLength < part.length) :
    fs.follow through links at_ (part :: rest) = .error .nameTooLong := by
  rw [follow.eq_def]
  simp only [hat, if_neg hidle, if_neg hup, if_pos hlong]

theorem follow_stuck (hat : fs.get? at_ ≠ some .directory) :
    fs.follow through links at_ (part :: rest) = .error .notADirectory := by
  rw [follow.eq_def]
  split
  · cases ‹_ = []›
  · next heq =>
    split
    · exact absurd ‹_› hat
    · rfl

theorem follow_missing (hat : fs.get? at_ = some .directory) (h : NamesEntry part)
    (hnone : fs.get? (at_ ++ [part]) = none) :
    fs.follow through links at_ (part :: rest) = if rest = [] then .ok (at_ ++ [part]) else .error .notFound := by
  rw [follow.eq_def]
  simp only [hat, if_neg h.notIdle, if_neg h.notUp, if_neg h.short, hnone]

theorem follow_link (hat : fs.get? at_ = some .directory) (h : NamesEntry part) {target : Path}
    (hlink : fs.get? (at_ ++ [part]) = some (.link target)) :
    fs.follow through links at_ (part :: rest) =
      if rest = [] ∧ through = false then .ok (at_ ++ [part])
      else
        match links with
        | 0 => .error .tooManyLinks
        | links + 1 => fs.follow through links (linkStart at_ target) (Path.split target.bytes ++ rest) := by
  rw [follow.eq_def]
  cases links <;> simp [hat, h.notIdle, h.notUp, h.short, hlink]

theorem follow_entry (hat : fs.get? at_ = some .directory) (h : NamesEntry part) {e : Entry}
    (he : fs.get? (at_ ++ [part]) = some e) (hlink : ∀ target, e ≠ .link target) :
    fs.follow through links at_ (part :: rest) = fs.follow through links (at_ ++ [part]) rest := by
  rw [follow.eq_def]
  simp only [hat, if_neg h.notIdle, if_neg h.notUp, if_neg h.short, he]

end Steps

variable {pages : Location → Prop} {fs fs' : FileSystem}

theorem follow_of_grows (h : Grows pages fs fs') {through : Bool} {links : Nat} {at_ k : Location}
    {parts : List Name} (hk : fs.follow through links at_ parts = .ok k) :
    fs'.follow through links at_ parts = .ok k := by
  fun_induction follow fs through links at_ parts with
  | case1 => rw [follow_nil, hk]
  | case2 links at_ part rest hat hidle ih =>
    rw [follow_idle ((h.change _).directory hat) hidle]
    exact ih hk
  | case3 links at_ rest hat hidle ih =>
    rw [follow_up ((h.change _).directory hat)]
    exact ih hk
  | case5 links at_ part hat hidle hup hshort hnone =>
    -- what was missing at the end of a path can be there now, but it is no link
    have hat' := (h.change _).directory hat
    have hnames : NamesEntry part := ⟨hidle, hup, hshort⟩
    cases he : fs'.get? (at_ ++ [part]) with
    | none => rw [follow_missing hat' hnames he, if_pos rfl, hk]
    | some e =>
      have hlink : ∀ target, e ≠ .link target := by
        rintro target rfl
        rw [(h.change _).of_link he] at hnone
        cases hnone
      rw [follow_entry hat' hnames he hlink, follow_nil, hk]
  | case7 links at_ part rest hat hidle hup hshort target hlink hlast =>
    rw [follow_link ((h.change _).directory hat) ⟨hidle, hup, hshort⟩ ((h.change _).link hlink), if_pos hlast, hk]
  | case9 at_ part rest hat hidle hup hshort target hlink hlast links ih =>
    rw [follow_link ((h.change _).directory hat) ⟨hidle, hup, hshort⟩ ((h.change _).link hlink), if_neg hlast]
    exact ih hk
  | case10 links at_ part rest hat hidle hup hshort e hlink he ih =>
    obtain ⟨e', he', hlink'⟩ := (h.change _).not_link he hlink
    rw [follow_entry ((h.change _).directory hat) ⟨hidle, hup, hshort⟩ he' hlink']
    exact ih hk
  | _ => cases hk

/-- Something that is no link stands at a location. -/
def Settled (fs : FileSystem) (l : Location) : Prop :=
  fs.get? l = some .directory ∨ ∃ bytes, fs.get? l = some (.file bytes)

theorem settled_of_entry {l : Location} {e : Entry} (he : fs.get? l = some e) (hlink : ∀ target, e ≠ .link target) :
    fs.Settled l := by
  cases e with
  | file bytes => exact .inr ⟨bytes, he⟩
  | directory => exact .inl he
  | link target => exact absurd rfl (hlink target)

theorem Settled.exists {l : Location} (h : fs.Settled l) : ∃ e, fs.get? l = some e := by
  obtain h | ⟨bytes, h⟩ := h <;> exact ⟨_, h⟩

theorem settled_root (fs : FileSystem) : fs.Settled [] :=
  .inl (get?_root fs)

theorem settled_linkStart {at_ : Location} (h : fs.Settled at_) (target : Path) :
    fs.Settled (linkStart at_ target) := by
  rw [linkStart]
  split
  · exact settled_root fs
  · exact h

theorem settled_dropLast (hwf : fs.WellFormed) {at_ : Location} (h : fs.Settled at_) : fs.Settled at_.dropLast := by
  obtain ⟨e, he⟩ := h.exists
  exact .inl (hwf.directory_dropLast he)

/-- A path that fails for another reason than that something is missing fails so for good. -/
theorem follow_error_of_grows (hwf : fs.WellFormed) (h : Grows pages fs fs') {through : Bool} {links : Nat}
    {at_ : Location} {parts : List Name} {e : IoError} (hat : fs.Settled at_)
    (he : fs.follow through links at_ parts = .error e) :
    e = .notFound ∨ fs'.follow through links at_ parts = .error e := by
  -- The walk in the later table takes the same steps, since what was met before is there still. Only where something is
  -- missing may it go on.
  fun_induction follow fs through links at_ parts with
  | case1 => cases he
  | case2 links at_ part rest hdir hidle ih =>
    rw [follow_idle ((h.change _).directory hdir) hidle]
    exact ih hat he
  | case3 links at_ rest hdir hidle ih =>
    rw [follow_up ((h.change _).directory hdir)]
    exact ih (settled_dropLast hwf hat) he
  | case4 links at_ part rest hdir hidle hup hlong =>
    rw [follow_long ((h.change _).directory hdir) hidle hup hlong, he]
    exact .inr rfl
  | case5 => cases he
  | case6 =>
    cases he
    exact .inl rfl
  | case7 => cases he
  | case8 at_ part rest hdir hidle hup hshort target hlink hlast =>
    rw [follow_link ((h.change _).directory hdir) ⟨hidle, hup, hshort⟩ ((h.change _).link hlink), if_neg hlast]
    exact .inr he
  | case9 at_ part rest hdir hidle hup hshort target hlink hlast links ih =>
    rw [follow_link ((h.change _).directory hdir) ⟨hidle, hup, hshort⟩ ((h.change _).link hlink), if_neg hlast]
    exact ih (settled_linkStart hat target) he
  | case10 links at_ part rest hdir hidle hup hshort d hlink hd ih =>
    obtain ⟨d', hd', hlink'⟩ := (h.change _).not_link hd hlink
    rw [follow_entry ((h.change _).directory hdir) ⟨hidle, hup, hshort⟩ hd' hlink']
    exact ih (settled_of_entry hd hlink) he
  | case11 links at_ part rest hdir =>
    obtain hdir' | ⟨bytes, hfile⟩ := hat
    · exact absurd hdir' hdir
    · obtain ⟨bytes', hfile'⟩ := (h.change _).file hfile
      have hnot : fs'.get? at_ ≠ some .directory := by simp [hfile']
      rw [follow_stuck hnot, he]
      exact .inr rfl

/-- At the end of a path that is followed through there is no link. -/
theorem not_link_of_follow (hwf : fs.WellFormed) {links : Nat} {at_ k : Location} {parts : List Name}
    (hat : fs.Settled at_) (hk : fs.follow true links at_ parts = .ok k) : fs.get? k = none ∨ fs.Settled k := by
  fun_induction follow fs true links at_ parts with
  | case1 =>
    cases hk
    exact .inr hat
  | case2 links at_ part rest hdir hidle ih => exact ih hat hk
  | case3 links at_ rest hdir hidle ih => exact ih (settled_dropLast hwf hat) hk
  | case5 links at_ part hdir hidle hup hshort hnone =>
    cases hk
    exact .inl hnone
  | case7 links at_ part rest hdir hidle hup hshort target hlink hlast => cases hlast.2
  | case9 at_ part rest hdir hidle hup hshort target hlink hlast links ih =>
    exact ih (settled_linkStart hat target) hk
  | case10 links at_ part rest hdir hidle hup hshort e hlink he ih => exact ih (settled_of_entry he hlink) hk
  | _ => cases hk

/-- Where a path leads to nothing, something may be made. -/
theorem isPlaced_of_follow (hwf : fs.WellFormed) {through : Bool} {links : Nat} {at_ k : Location}
    {parts : List Name} (hat : fs.Settled at_) (hparts : ∀ part ∈ parts, Path.slash ∉ part)
    (hk : fs.follow through links at_ parts = .ok k) (hnone : fs.get? k = none) : fs.isPlaced k = true := by
  -- The induction keeps that something stands where the walk is. It can end at nothing only under the last name
  -- (`case5`).
  fun_induction follow fs through links at_ parts with
  | case1 =>
    cases hk
    obtain ⟨e, he⟩ := hat.exists
    rw [hnone] at he
    cases he
  | case2 links at_ part rest hdir hidle ih =>
    exact ih hat (fun p hp => hparts p (List.mem_cons_of_mem part hp)) hk
  | case3 links at_ rest hdir hidle ih =>
    exact ih (settled_dropLast hwf hat) (fun p hp => hparts p (List.mem_cons_of_mem _ hp)) hk
  | case5 links at_ part hdir hidle hup hshort =>
    cases hk
    rw [not_or] at hidle
    have hslash : Path.slash ∉ part := hparts part List.mem_cons_self
    rw [isPlaced_concat]
    refine ⟨?_, hdir⟩
    simp [isName, hidle.1, hidle.2, hup, hslash]
  | case7 links at_ part rest hdir hidle hup hshort target hlink =>
    cases hk
    rw [hnone] at hlink
    cases hlink
  | case9 at_ part rest hdir hidle hup hshort target hlink hlast links ih =>
    refine ih (settled_linkStart hat target) ?_ hk
    intro p hp
    obtain hp | hp := List.mem_append.1 hp
    · exact Path.not_mem_of_mem_split hp
    · exact hparts p (List.mem_cons_of_mem part hp)
  | case10 links at_ part rest hdir hidle hup hshort e hlink he ih =>
    exact ih (settled_of_entry he hlink) (fun p hp => hparts p (List.mem_cons_of_mem part hp)) hk
  | _ => cases hk

end FileSystem
end Folio
