import Mathlib.Data.List.Induction
import Folio.FileSystem.Basic
import Folio.Proofs.Lookup

/-!
# Folio.Proofs.FileSystem.WellFormed

Tables that are file systems.

* `isName`: what an entry may be called.
* `WellFormed`: each entry stands once, in a directory and with a proper name.
* `WellFormed.put`: a new entry in a directory, or a new one in the place of a file, keeps the table well formed.
-/

namespace Folio

/-- What an entry of a directory may be called. -/
def isName (name : Name) : Bool :=
  name != [] && name != Path.dotName && name != Path.dotDotName && !name.contains Path.slash

namespace FileSystem

/-- Whether an entry may stand at a location: below a directory, with a proper name. -/
def isPlaced (fs : FileSystem) (l : Location) : Bool :=
  match l.getLast? with
  | none => false
  | some name => isName name && fs.get? l.dropLast == some .directory

structure WellFormed (fs : FileSystem) : Prop where
  nodup : (fs.entries.map Prod.fst).Nodup
  placed : ∀ p ∈ fs.entries, fs.isPlaced p.1 = true
  current : fs.get? fs.current = some .directory

theorem get?_root (fs : FileSystem) : fs.get? [] = some .directory := by
  rw [get?, if_pos rfl]

theorem get?_of_nodup {fs : FileSystem} (hnodup : (fs.entries.map Prod.fst).Nodup) {l : Location} {e : Entry}
    (hl : l ≠ []) (hmem : (l, e) ∈ fs.entries) : fs.get? l = some e := by
  rw [get?, if_neg hl]
  exact lookup_of_mem hnodup hmem

theorem mem_of_get? {fs : FileSystem} {l : Location} {e : Entry} (hl : l ≠ []) (h : fs.get? l = some e) :
    (l, e) ∈ fs.entries := by
  rw [get?, if_neg hl] at h
  exact mem_of_lookup h

theorem isPlaced_concat {fs : FileSystem} {l : Location} {name : Name} :
    fs.isPlaced (l ++ [name]) = true ↔ isName name = true ∧ fs.get? l = some .directory := by
  rw [isPlaced, List.getLast?_concat, List.dropLast_concat]
  simp

theorem isPlaced_ne_root {fs : FileSystem} {l : Location} (h : fs.isPlaced l = true) : l ≠ [] := by
  rintro rfl
  cases h

namespace WellFormed

variable {fs : FileSystem}

theorem get?_of_mem (h : fs.WellFormed) {l : Location} {e : Entry} (hmem : (l, e) ∈ fs.entries) :
    fs.get? l = some e :=
  get?_of_nodup h.nodup (isPlaced_ne_root (h.placed _ hmem)) hmem

theorem isPlaced (h : fs.WellFormed) {l : Location} {e : Entry} (hl : l ≠ []) (he : fs.get? l = some e) :
    fs.isPlaced l = true :=
  h.placed _ (mem_of_get? hl he)

/-- Entries stand in directories. -/
theorem directory_of_concat (h : fs.WellFormed) {l : Location} {name : Name} {e : Entry}
    (he : fs.get? (l ++ [name]) = some e) : fs.get? l = some .directory :=
  (isPlaced_concat.1 (h.isPlaced (by simp) he)).2

theorem isName_of_concat (h : fs.WellFormed) {l : Location} {name : Name} {e : Entry}
    (he : fs.get? (l ++ [name]) = some e) : isName name = true :=
  (isPlaced_concat.1 (h.isPlaced (by simp) he)).1

theorem isName_of_mem (h : fs.WellFormed) {l : Location} {e : Entry} (he : fs.get? l = some e) :
    ∀ name ∈ l, isName name = true := by
  induction l using List.reverseRecOn generalizing e with
  | nil => simp
  | append_singleton l last ih =>
    intro name hname
    obtain hname | hname := List.mem_append.1 hname
    · exact ih (h.directory_of_concat he) name hname
    · rw [List.mem_singleton.1 hname]
      exact h.isName_of_concat he

theorem directory_dropLast (h : fs.WellFormed) {l : Location} {e : Entry} (he : fs.get? l = some e) :
    fs.get? l.dropLast = some .directory := by
  obtain rfl | ⟨l, name, rfl⟩ := l.eq_nil_or_concat
  · exact get?_root fs
  · rw [List.concat_eq_append] at he ⊢
    rw [List.dropLast_concat]
    exact h.directory_of_concat he

theorem directory_of_append (h : fs.WellFormed) {l more : Location} {e : Entry} (hmore : more ≠ [])
    (he : fs.get? (l ++ more) = some e) : fs.get? l = some .directory := by
  induction more using List.reverseRecOn generalizing e with
  | nil => exact absurd rfl hmore
  | append_singleton more name ih =>
    rw [← List.append_assoc] at he
    have hdir := h.directory_of_concat he
    by_cases hnil : more = []
    · rwa [hnil, List.append_nil] at hdir
    · exact ih hnil hdir

end WellFormed

theorem keys_putEntry (l : Location) (e : Entry) (es : List (Location × Entry)) :
    (putEntry l e es).map Prod.fst = if l ∈ es.map Prod.fst then es.map Prod.fst else es.map Prod.fst ++ [l] := by
  induction es with
  | nil => simp [putEntry]
  | cons p es ih =>
    obtain ⟨k, d⟩ := p
    by_cases hk : k = l
    · simp [putEntry, hk]
    · by_cases hmem : l ∈ es.map Prod.fst
      · rw [putEntry, if_neg hk, List.map_cons, ih, if_pos hmem, List.map_cons, if_pos (List.mem_cons_of_mem k hmem)]
      · have hnot : l ∉ k :: es.map Prod.fst := by
          rw [List.mem_cons, not_or]
          exact ⟨Ne.symm hk, hmem⟩
        rw [putEntry, if_neg hk, List.map_cons, ih, if_neg hmem, List.map_cons, if_neg hnot, List.cons_append]

/-- What may be replaced by a file: nothing, or a file. -/
def Writable (fs : FileSystem) (l : Location) : Prop :=
  fs.get? l = none ∨ ∃ bytes, fs.get? l = some (.file bytes)

theorem WellFormed.put {fs : FileSystem} (h : fs.WellFormed) {l : Location} (hl : fs.isPlaced l = true)
    (hfree : fs.Writable l) (e : Entry) : (fs.put l e).WellFormed := by
  -- No directory is replaced, so that what stands in one stands in it afterwards.
  have hdir : ∀ k, fs.get? k = some .directory → (fs.put l e).get? k = some .directory := by
    intro k hk
    rw [get?_put fs (isPlaced_ne_root hl), if_neg, hk]
    rintro rfl
    rw [Writable, hk] at hfree
    obtain hfree | ⟨bytes, hfree⟩ := hfree <;> cases hfree
  have hplaced : ∀ k, fs.isPlaced k = true → (fs.put l e).isPlaced k = true := by
    intro k hk
    obtain rfl | ⟨k, name, rfl⟩ := k.eq_nil_or_concat
    · cases hk
    · rw [List.concat_eq_append, isPlaced_concat] at hk ⊢
      exact ⟨hk.1, hdir k hk.2⟩
  refine ⟨?_, ?_, hdir _ h.current⟩
  · rw [FileSystem.put, keys_putEntry]
    split
    · exact h.nodup
    · next hnot => exact List.nodup_append.2 ⟨h.nodup, by simp, by
        intro k hk k' hk'
        rw [List.mem_singleton] at hk'
        rintro rfl
        exact hnot (hk' ▸ hk)⟩
  · intro p hp
    apply hplaced
    have hmem : p.1 ∈ (fs.put l e).entries.map Prod.fst := List.mem_map.2 ⟨p, hp, rfl⟩
    rw [FileSystem.put, keys_putEntry] at hmem
    have hcases : p.1 ∈ fs.entries.map Prod.fst ∨ p.1 = l := by
      split at hmem
      · exact .inl hmem
      · simpa using hmem
    obtain hold | hnew := hcases
    · obtain ⟨q, hq, heq⟩ := List.mem_map.1 hold
      exact heq ▸ h.placed q hq
    · exact hnew.symm ▸ hl

end FileSystem
end Folio
