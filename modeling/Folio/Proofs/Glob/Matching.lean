import Folio.Glob
import Mathlib.Data.List.Basic

/-!
# Folio.Proofs.Glob.Matching

Patterns and the paths below what they match.

* `partsRests_append`: where a pattern matches a start, it matches it with more bytes behind.
* `Fits`: a pattern matches all of a byte sequence.
* `Continues`: a pattern, and the same with two asterisks behind a slash. `Continues.matches` says that the second one
  matches whatever stands below what one of them matches.
-/

namespace Folio
namespace Glob

open Folio.Path

/-! ### Matching with more behind -/

section Matching

variable {more : List UInt8}

theorem mem_tails_append {bytes rest : List UInt8} (h : rest ∈ tails bytes) : rest ++ more ∈ tails (bytes ++ more) := by
  induction bytes with
  | nil =>
    obtain rfl := List.mem_singleton.1 h
    cases more <;> exact List.mem_cons_self
  | cons b bytes ih =>
    obtain rfl | h := List.mem_cons.1 h
    · exact List.mem_cons_self
    · exact List.mem_cons_of_mem _ (ih h)

theorem nil_mem_tails (bytes : List UInt8) : [] ∈ tails bytes := by
  induction bytes with
  | nil => exact List.mem_cons_self
  | cons b bytes ih => exact List.mem_cons_of_mem _ ih

theorem mem_afterSlashes_append {bytes rest : List UInt8} (h : rest ∈ afterSlashes bytes) :
    rest ++ more ∈ afterSlashes (bytes ++ more) := by
  induction bytes with
  | nil => cases h
  | cons b bytes ih =>
    rw [afterSlashes] at h
    rw [List.cons_append, afterSlashes]
    split at h
    · next hslash =>
      rw [if_pos hslash]
      obtain rfl | h := List.mem_cons.1 h
      · exact List.mem_cons_self
      · exact List.mem_cons_of_mem _ (ih h)
    · next hslash =>
      rw [if_neg hslash]
      exact ih h

/-- Where a part matches a start, it matches it with more bytes behind. -/
theorem simpleRests_append {part : GlobPart} {bytes rest : List UInt8} (h : rest ∈ simpleRests part bytes) :
    rest ++ more ∈ simpleRests part (bytes ++ more) := by
  -- One case for each kind of part. Those that match up to any place in the text go back to its tails.
  unfold simpleRests at h
  split at h
  · next lit =>
    split at h
    · next hlit =>
      obtain rfl := List.mem_singleton.1 h
      have hfront := List.isPrefixOf_iff_prefix.1 hlit
      have hlit' : lit.isPrefixOf (bytes ++ more) = true :=
        List.isPrefixOf_iff_prefix.2 (hfront.trans (List.prefix_append _ more))
      rw [simpleRests, if_pos hlit', List.drop_append_of_le_length hfront.length_le]
      exact List.mem_cons_self
    · cases h
  · next b bytes =>
    obtain rfl := List.mem_singleton.1 h
    exact List.mem_cons_self
  · next bytes => exact mem_tails_append h
  · next negated ranges b bytes =>
    split at h
    · next hin =>
      obtain rfl := List.mem_singleton.1 h
      rw [List.cons_append, simpleRests, if_pos hin]
      exact List.mem_cons_self
    · cases h
  · next bytes =>
    obtain rfl | h := List.mem_cons.1 h
    · exact List.mem_cons_self
    · exact List.mem_cons_of_mem _ (mem_afterSlashes_append h)
  · next b bytes =>
    split at h
    · next hslash =>
      rw [List.cons_append, simpleRests, if_pos hslash]
      obtain rfl | h := List.mem_cons.1 h
      · exact List.mem_cons_self
      · exact List.mem_cons_of_mem _ (mem_afterSlashes_append h)
    · cases h
  · next b bytes =>
    split at h
    · next hslash =>
      rw [List.cons_append, simpleRests, if_pos hslash]
      exact mem_tails_append h
    · cases h
  · cases h

mutual

theorem rests_append : ∀ (part : GlobPart) {bytes rest : List UInt8}, rest ∈ rests part bytes →
    rest ++ more ∈ rests part (bytes ++ more)
  | .alternatives branches, bytes, rest, h => by
    rw [rests] at h ⊢
    split at h
    · next hvoid =>
      rw [if_pos hvoid]
      obtain rfl := List.mem_singleton.1 h
      exact List.mem_cons_self
    · next hvoid =>
      rw [if_neg hvoid]
      exact branchRests_append branches h
  | .literal lit, bytes, rest, h => @simpleRests_append more (.literal lit) bytes rest h
  | .anyByte, bytes, rest, h => @simpleRests_append more .anyByte bytes rest h
  | .anyBytes, bytes, rest, h => @simpleRests_append more .anyBytes bytes rest h
  | .byteClass negated ranges, bytes, rest, h => @simpleRests_append more (.byteClass negated ranges) bytes rest h
  | .leadingDirectories, bytes, rest, h => @simpleRests_append more .leadingDirectories bytes rest h
  | .betweenDirectories, bytes, rest, h => @simpleRests_append more .betweenDirectories bytes rest h
  | .belowDirectory, bytes, rest, h => @simpleRests_append more .belowDirectory bytes rest h

theorem partsRests_append : ∀ (parts : Glob) {starts starts' : List (List UInt8)} {rest : List UInt8},
    (∀ bytes ∈ starts, bytes ++ more ∈ starts') → rest ∈ partsRests parts starts →
      rest ++ more ∈ partsRests parts starts'
  | [], starts, starts', rest, hstarts, h => hstarts rest h
  | part :: parts, starts, starts', rest, hstarts, h => by
    rw [partsRests] at h ⊢
    refine partsRests_append parts (fun bytes hbytes => ?_) h
    rw [List.mem_eraseDups, List.mem_flatMap] at hbytes ⊢
    obtain ⟨start, hstart, hbytes⟩ := hbytes
    exact ⟨start ++ more, hstarts start hstart, rests_append part hbytes⟩

theorem branchRests_append : ∀ (branches : List Glob) {bytes rest : List UInt8}, rest ∈ branchRests branches bytes →
    rest ++ more ∈ branchRests branches (bytes ++ more)
  | [], bytes, rest, h => by cases h
  | branch :: branches, bytes, rest, h => by
    rw [branchRests, List.mem_append] at h ⊢
    refine h.imp (fun h => ?_) (branchRests_append branches)
    split at h
    · cases h
    · next hvoid =>
      rw [if_neg hvoid]
      refine partsRests_append branch (fun bytes' hbytes => ?_) h
      rw [List.mem_singleton.1 hbytes]
      exact List.mem_cons_self

end

end Matching

/-- A pattern matches all of a byte sequence, part by part. -/
def Fits (glob : Glob) (bytes : List UInt8) : Prop :=
  [] ∈ partsRests glob [bytes]

theorem matchesPath_iff (glob : Glob) (path : Path) :
    glob.matchesPath path = true ↔ glob = [.leadingDirectories] ∨ glob.Fits path.bytes := by
  unfold matchesPath
  split
  · exact iff_of_true rfl (.inl rfl)
  · next hne =>
    rw [List.contains_iff_mem]
    exact (or_iff_right hne).symm

theorem mem_partsRests_concat (glob : Glob) (part : GlobPart) (starts : List (List UInt8)) (rest : List UInt8) :
    rest ∈ partsRests (glob ++ [part]) starts ↔ ∃ bytes ∈ partsRests glob starts, rest ∈ rests part bytes := by
  induction glob generalizing starts with
  | nil => rw [List.nil_append, partsRests, partsRests, partsRests, List.mem_eraseDups, List.mem_flatMap]
  | cons first glob ih => rw [List.cons_append, partsRests, partsRests, ih]

/-- Whatever stands below what a pattern matches is matched by the pattern with two asterisks behind a slash. -/
theorem Fits.below {glob : Glob} {dir : List UInt8} (h : glob.Fits dir) (bytes : List UInt8) :
    Fits (glob ++ [.belowDirectory]) (dir ++ slash :: bytes) := by
  rw [Fits, mem_partsRests_concat]
  refine ⟨slash :: bytes, ?_, nil_mem_tails bytes⟩
  refine partsRests_append glob (fun start hstart => ?_) h
  rw [List.mem_singleton.1 hstart]
  exact List.mem_cons_self

/-- Such a pattern matches whatever stands below what it matches. -/
theorem Fits.further {glob : Glob} {dir : List UInt8} (h : Fits (glob ++ [.belowDirectory]) dir) (bytes : List UInt8) :
    Fits (glob ++ [.belowDirectory]) (dir ++ bytes) := by
  rw [Fits, mem_partsRests_concat] at h ⊢
  obtain ⟨start, hstart, hbelow⟩ := h
  refine ⟨start ++ bytes, partsRests_append glob (fun other hother => ?_) hstart, ?_⟩
  · rw [List.mem_singleton.1 hother]
    exact List.mem_cons_self
  · have hrests : ∀ bytes, rests .belowDirectory bytes = simpleRests .belowDirectory bytes := fun _ => rfl
    rw [hrests] at hbelow ⊢
    cases start with
    | nil => cases hbelow
    | cons b start =>
      rw [simpleRests] at hbelow
      split at hbelow
      · next hslash =>
        rw [List.cons_append, simpleRests, if_pos hslash]
        exact nil_mem_tails _
      · cases hbelow

/-! ### Patterns that go on -/

/-- A pattern and the same with two asterisks behind a slash. They are the same if it ends so already. -/
inductive Continues : Glob → Glob → Prop where
  | more {glob : Glob} (hne : glob ≠ [.leadingDirectories]) : Continues glob (glob ++ [.belowDirectory])
  | all : Continues [.leadingDirectories] [.leadingDirectories]
  | same {front : Glob} : Continues (front ++ [.belowDirectory]) (front ++ [.belowDirectory])

/-- With two asterisks behind a slash, a pattern matches whatever stands below what it matches, and further below. -/
theorem Continues.matches {glob glob' : Glob} (h : Continues glob glob') {dir : List UInt8}
    (hdir : glob.matchesPath ⟨dir⟩ = true ∨ glob'.matchesPath ⟨dir⟩ = true) (bytes : List UInt8) :
    glob'.matchesPath ⟨dir ++ slash :: bytes⟩ = true := by
  have hbelow : ∀ front : Glob, front ++ [.belowDirectory] ≠ [.leadingDirectories] := by
    intro front heq
    have hlast := congrArg List.getLast? heq
    rw [List.getLast?_concat] at hlast
    cases hlast
  rw [matchesPath_iff, matchesPath_iff] at hdir
  rw [matchesPath_iff]
  cases h with
  | more hne =>
    -- the directory fits the pattern itself, or it stands below one that does
    obtain hfits | hfits := hdir
    · exact .inr ((hfits.resolve_left hne).below bytes)
    · exact .inr ((hfits.resolve_left (hbelow glob)).further (slash :: bytes))
  | all => exact .inl rfl
  | @same front =>
    have hfits : Fits (front ++ [.belowDirectory]) dir := (hdir.elim id id).resolve_left (hbelow front)
    exact .inr (hfits.further (slash :: bytes))

end Glob
end Folio
