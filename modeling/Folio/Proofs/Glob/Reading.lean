import Folio.Proofs.Glob.Matching

/-!
# Folio.Proofs.Glob.Reading

Patterns that go on behind their end.

* `step_append`: what is read does not depend on what follows behind a slash, unless two asterisks come last.
* `finish_append`: by induction on the text, the pattern goes on with two asterisks behind a slash.
* `parse_append`: this holds of all patterns that do not end with a slash.
-/

namespace Folio
namespace Glob

open Folio.Path

/-- A class ends with its bracket, whatever follows. -/
theorem readClass_append {inRange : Bool} {ranges ranges' : List (Char × Char)} {cs rest : List Char}
    (h : readClass inRange ranges cs = .ok (ranges', rest)) (more : List Char) :
    readClass inRange ranges (cs ++ more) = .ok (ranges', rest ++ more) ∧ ∃ inner, cs = inner ++ ']' :: rest := by
  fun_induction readClass inRange ranges cs with
  | case1 => cases h
  | case2 inRange ranges c cs hclose =>
    cases h
    refine ⟨?_, [], by rw [hclose.1]; rfl⟩
    unfold readClass
    exact if_pos hclose
  | case3 => cases h
  | case4 c cs first last ranges hrange hclose ih =>
    obtain ⟨hread, inner, rfl⟩ := ih h
    rw [List.cons_append, readClass, if_neg hclose, if_neg hrange]
    exact ⟨hread, c :: inner, rfl⟩
  | case5 inRange c cs ranges hhyphen hfirst hclose ih =>
    obtain ⟨hread, inner, rfl⟩ := ih h
    rw [List.cons_append, readClass, if_neg hclose, if_pos hhyphen]
    · exact ⟨hread, c :: inner, rfl⟩
    · exact hfirst
  | case6 inRange c cs ranges hhyphen hfirst hclose ih =>
    obtain ⟨hread, inner, rfl⟩ := ih h
    rw [List.cons_append, readClass, if_neg hclose, if_neg hhyphen]
    · exact ⟨hread, c :: inner, rfl⟩
    · exact hfirst

/-- What is read of a class after the sign that negates it. -/
theorem classPart_eq (c : Char) (cs : List Char) :
    ∃ negated sign inner, c :: cs = sign ++ inner ∧ ∀ more, classPart (c :: cs ++ more) =
      match readClass false [] (inner ++ more) with
      | .error e => .error e
      | .ok (ranges, rest) => .ok (.byteClass negated (ranges.flatMap fun r => byteRanges r.1 r.2), rest) := by
  by_cases hbang : c = '!'
  · subst hbang
    exact ⟨true, ['!'], cs, rfl, fun more => rfl⟩
  by_cases hcaret : c = '^'
  · subst hcaret
    exact ⟨true, ['^'], cs, rfl, fun more => rfl⟩
  · refine ⟨false, [], c :: cs, rfl, fun more => ?_⟩
    rw [List.cons_append]
    unfold classPart
    split
    next hsign =>
      split at hsign
      · next heq => exact absurd (List.cons.inj heq).1 hbang
      · next heq => exact absurd (List.cons.inj heq).1 hcaret
      · cases hsign
        rfl

theorem classPart_append {cs rest : List Char} {part : GlobPart} (h : classPart cs = .ok (part, rest))
    (more : List Char) :
    classPart (cs ++ more) = .ok (part, rest ++ more) ∧ part ≠ .leadingDirectories ∧
      ∃ inner, cs = inner ++ ']' :: rest := by
  cases cs with
  | nil => cases h
  | cons c cs =>
    obtain ⟨negated, sign, inner, heq, hparts⟩ := classPart_eq c cs
    have hpart := hparts []
    rw [List.append_nil, List.append_nil, h] at hpart
    cases hread : readClass false [] inner with
    | error e =>
      rw [hread] at hpart
      cases hpart
    | ok found =>
      obtain ⟨ranges, after⟩ := found
      rw [hread] at hpart
      cases hpart
      obtain ⟨hmore, inside, rfl⟩ := readClass_append hread more
      rw [hparts, hmore]
      refine ⟨rfl, nofun, sign ++ inside, ?_⟩
      rw [heq, List.append_assoc]

namespace Reading

/-- Two asterisks at the start of a path stand alone in front of it: a slash has come last, unless a group is open. -/
def Leads (r : Reading) : Prop :=
  ∀ before, r.parts = .leadingDirectories :: before → before = [] ∧ (r.groups = [] → r.last = some '/')

theorem leads_of_head {r : Reading} (h : r.parts.head? ≠ some .leadingDirectories) : r.Leads := by
  intro before heq
  rw [heq] at h
  exact (h rfl).elim

/-- After the asterisks at the end of a pattern, more of it may follow. -/
structure EndsBelow (r r' : Reading) : Prop where
  parts : r.parts ≠ []
  last : r.last = some '/'
  next : r.pushDirectories .belowDirectory '*' = r'
  shape : r'.parts = [.leadingDirectories] ∨ ∃ before, r'.parts = .belowDirectory :: before

theorem leads_pushStars (r : Reading) : r.pushStars.Leads :=
  leads_of_head (by simp [pushStars, push])

/-- Two asterisks behind others that stand in front of a path belong to them. -/
theorem parts_pushDirectories {r : Reading} (hleads : r.Leads) (part : GlobPart) (last : Char) :
    (r.pushDirectories part last).parts = [.leadingDirectories] ∨
      ∃ before, (r.pushDirectories part last).parts = part :: before ∨
        (r.pushDirectories part last).parts = .belowDirectory :: before := by
  cases hparts : r.parts with
  | nil => exact .inr ⟨[], .inl (by simp [pushDirectories, hparts])⟩
  | cons first before =>
    cases first
    case leadingDirectories =>
      obtain ⟨rfl, -⟩ := hleads before hparts
      exact .inl (by simp [pushDirectories, hparts])
    all_goals exact .inr ⟨before, by simp [pushDirectories, hparts]⟩

theorem leads_pushDirectories {r : Reading} (hleads : r.Leads) {part : GlobPart} (hpart : part ≠ .leadingDirectories)
    {last : Char} (hlast : r.groups = [] → last = '/') : (r.pushDirectories part last).Leads := by
  intro before heq
  obtain hparts | ⟨others, hparts | hparts⟩ := parts_pushDirectories hleads part last
  · rw [hparts] at heq
    cases heq
    exact ⟨rfl, fun hgroups => congrArg some (hlast hgroups)⟩
  · rw [hparts] at heq
    exact (hpart (List.cons.inj heq).1).elim
  · rw [hparts] at heq
    cases heq

theorem starsAtStart_append {r : Reading} (hempty : r.parts = []) (cs more : List Char) :
    (r.starsAtStart (cs ++ '/' :: more) = ((r.starsAtStart cs).1, (r.starsAtStart cs).2 ++ '/' :: more) ∧
        (r.starsAtStart cs).1.Leads) ∨
      (r.starsAtStart cs).2 = [] ∧ ∃ r₁, r.starsAtStart (cs ++ '/' :: more) = (r₁, more) ∧
        EndsBelow r₁ (r.starsAtStart cs).1 := by
  cases cs with
  | nil =>
    refine .inr ⟨rfl, r.push .leadingDirectories '/', rfl, ⟨List.cons_ne_nil _ _, rfl, rfl, .inl ?_⟩⟩
    rw [starsAtStart, push, hempty]
  | cons c cs =>
    refine .inl ?_
    rw [List.cons_append, starsAtStart, starsAtStart]
    split
    · refine ⟨rfl, fun before heq => ?_⟩
      cases heq
      exact ⟨hempty, fun _ => rfl⟩
    · exact ⟨rfl, leads_pushStars r⟩

theorem pushDirectories_again (r : Reading) :
    (r.pushDirectories .betweenDirectories '/').pushDirectories .belowDirectory '*' =
      r.pushDirectories .belowDirectory '*' := by
  cases hparts : r.parts with
  | nil => simp [pushDirectories, hparts]
  | cons first before => cases first <;> simp [pushDirectories, hparts]

theorem starsInside_append {r : Reading} (hleads : r.Leads) (cs more : List Char) :
    (r.starsInside (cs ++ '/' :: more) = ((r.starsInside cs).1, (r.starsInside cs).2 ++ '/' :: more) ∧
        (r.starsInside cs).1.Leads) ∨
      (r.starsInside cs).2 = [] ∧ ∃ r₁, r.starsInside (cs ++ '/' :: more) = (r₁, more) ∧
        EndsBelow r₁ (r.starsInside cs).1 := by
  cases cs with
  | nil =>
    refine .inr ⟨rfl, r.pushDirectories .betweenDirectories '/', rfl,
      ⟨List.cons_ne_nil _ _, rfl, pushDirectories_again r, ?_⟩⟩
    obtain hparts | ⟨before, hparts | hparts⟩ := parts_pushDirectories hleads .belowDirectory '*'
    · exact .inl hparts
    · exact .inr ⟨before, hparts⟩
    · exact .inr ⟨before, hparts⟩
  | cons c cs =>
    refine .inl ?_
    rw [List.cons_append, starsInside, starsInside]
    split
    · have hpart : GlobPart.betweenDirectories ≠ .leadingDirectories := fun heq => by cases heq
      exact ⟨rfl, leads_pushDirectories hleads hpart fun _ => rfl⟩
    · split
      · next hgroups =>
        have hpart : GlobPart.belowDirectory ≠ .leadingDirectories := fun heq => by cases heq
        refine ⟨rfl, leads_pushDirectories hleads hpart fun hnil => ?_⟩
        simp [hnil] at hgroups
      · exact ⟨rfl, leads_pushStars r⟩

theorem stars_append {r : Reading} (hleads : r.Leads) (cs more : List Char) :
    (r.stars (cs ++ '/' :: more) = ((r.stars cs).1, (r.stars cs).2 ++ '/' :: more) ∧ (r.stars cs).1.Leads) ∨
      (r.stars cs).2 = [] ∧ ∃ r₁, r.stars (cs ++ '/' :: more) = (r₁, more) ∧ EndsBelow r₁ (r.stars cs).1 := by
  rw [stars, stars]
  split
  · next hempty => exact starsAtStart_append (List.isEmpty_iff.1 hempty) cs more
  · split
    · exact starsInside_append hleads cs more
    · exact .inl ⟨rfl, leads_pushStars r⟩

/-- What is read does not depend on what follows behind a slash, unless two asterisks come last. -/
theorem step_append {r r' : Reading} {c : Char} {cs rest : List Char} (h : r.step c cs = .ok (r', rest))
    (hleads : r.Leads) (more : List Char) :
    (r.step c (cs ++ '/' :: more) = .ok (r', rest ++ '/' :: more) ∧ r'.Leads) ∨
      rest = [] ∧ ∃ r₁, r.step c (cs ++ '/' :: more) = .ok (r₁, more) ∧ EndsBelow r₁ r' := by
  unfold step at h ⊢
  -- one case for each character with a meaning; only asterisks look at what follows
  split at h
  case h_1 =>
    cases h
    exact .inl ⟨rfl, leads_of_head (by simp [push])⟩
  case h_2 =>
    split at h
    · next cs =>
      have hstars := stars_append hleads cs more
      rw [Except.ok.inj h] at hstars
      obtain ⟨hsame, hleads'⟩ | ⟨hnil, r₁, hnext, hends⟩ := hstars
      · exact .inl ⟨congrArg Except.ok hsame, hleads'⟩
      · exact .inr ⟨hnil, r₁, congrArg Except.ok hnext, hends⟩
    · next hstar =>
      cases h
      refine .inl ⟨?_, leads_of_head (by simp [push])⟩
      cases cs with
      | nil => rfl
      | cons d cs =>
        have hd : d ≠ '*' := fun heq => hstar cs (by rw [heq])
        simp only [List.cons_append]
        split
        · next heq => exact (hd (List.cons.inj heq).1).elim
        · rfl
  case h_3 =>
    cases hclass : classPart cs with
    | error e =>
      rw [hclass] at h
      cases h
    | ok found =>
      obtain ⟨part, after⟩ := found
      rw [hclass] at h
      cases h
      obtain ⟨hmore, hne, -⟩ := classPart_append hclass ('/' :: more)
      exact .inl ⟨by simp only [hmore], leads_of_head (by simpa [push] using hne)⟩
  case h_4 =>
    cases h
    exact .inl ⟨rfl, leads_of_head (by simp)⟩
  case h_5 =>
    split at h
    · cases h
    · next branches before groups hgroups =>
      cases h
      exact .inl ⟨rfl, leads_of_head (by simp)⟩
  case h_6 =>
    split at h
    · next hgroups =>
      cases h
      exact .inl ⟨rfl, leads_of_head (by simp [push])⟩
    · next branches before groups hgroups =>
      cases h
      exact .inl ⟨rfl, leads_of_head (by simp)⟩
  case h_7 =>
    split at h
    · cases h
    · cases h
      exact .inl ⟨rfl, leads_of_head (by simp [push])⟩
  case h_8 =>
    cases h
    exact .inl ⟨rfl, leads_of_head (by simp [push])⟩

theorem stars_used (r : Reading) (cs : List Char) :
    ∃ used, cs = used ++ (r.stars cs).2 ∧ ('*' :: used).getLast? = (r.stars cs).1.last := by
  unfold stars
  split
  · unfold starsAtStart
    split
    · exact ⟨[], rfl, rfl⟩
    · split
      · next hslash => exact ⟨['/'], by rw [hslash]; rfl, rfl⟩
      · exact ⟨[], rfl, rfl⟩
  · split
    · unfold starsInside
      split
      · exact ⟨[], rfl, rfl⟩
      · split
        · next hslash => exact ⟨['/'], by rw [hslash]; rfl, rfl⟩
        · split <;> exact ⟨[], rfl, rfl⟩
    · exact ⟨[], rfl, rfl⟩

/-- The last character that is used is remembered. -/
theorem step_used {r r' : Reading} {c : Char} {cs rest : List Char} (h : r.step c cs = .ok (r', rest)) :
    ∃ used, c :: cs = c :: used ++ rest ∧ (c :: used).getLast? = r'.last := by
  unfold step at h
  split at h
  case h_2 =>
    split at h
    · next cs =>
      obtain ⟨used, hused, hlast⟩ := r.stars_used cs
      rw [Except.ok.inj h] at hused hlast
      exact ⟨'*' :: used, by rw [hused]; rfl, hlast⟩
    · cases h
      exact ⟨[], rfl, rfl⟩
  case h_3 =>
    cases hclass : classPart cs with
    | error e =>
      rw [hclass] at h
      cases h
    | ok found =>
      obtain ⟨part, after⟩ := found
      rw [hclass] at h
      cases h
      obtain ⟨-, -, inner, rfl⟩ := classPart_append hclass []
      exact ⟨inner ++ [']'], by simp, by rw [← List.cons_append, List.getLast?_concat]; rfl⟩
  case h_5 =>
    split at h
    · cases h
    · cases h
      exact ⟨[], rfl, rfl⟩
  case h_6 =>
    split at h
    · cases h
      exact ⟨[], rfl, rfl⟩
    · cases h
      exact ⟨[], rfl, rfl⟩
  case h_7 =>
    split at h
    · cases h
    · next d cs =>
      cases h
      exact ⟨[d], rfl, rfl⟩
  all_goals
    cases h
    exact ⟨[], rfl, rfl⟩

theorem EndsBelow.continues {r r' : Reading} (h : EndsBelow r r') : Continues r'.parts.reverse r'.parts.reverse := by
  obtain hparts | ⟨before, hparts⟩ := h.shape
  · rw [hparts]
    exact .all
  · rw [hparts, List.reverse_cons]
    exact .same

/-- Two asterisks at the end, behind a slash. -/
theorem step_stars {r : Reading} (hparts : r.parts ≠ []) (hlast : r.last = some '/') :
    r.step '*' ['*'] = .ok (r.pushDirectories .belowDirectory '*', []) := by
  have hempty : r.parts.isEmpty = false := by simpa using hparts
  have hstarts : r.startsDirectories = true := by simp [startsDirectories, hlast]
  have hstars : r.stars [] = (r.pushDirectories .belowDirectory '*', []) := by
    rw [stars, hempty, if_neg Bool.false_ne_true, if_pos hstarts, starsInside]
  exact congrArg Except.ok hstars

theorem finish_of_step {n : Nat} {r r' : Reading} {c : Char} {cs rest : List Char} (h : r.step c cs = .ok (r', rest)) :
    finish (n + 1) r (c :: cs) = finish n r' rest := by
  rw [finish, h]

theorem finish_nil {n : Nat} {r : Reading} {glob : Glob} (h : finish n r [] = .ok glob) :
    r.groups = [] ∧ glob = r.parts.reverse := by
  have hshape : finish n r [] = if r.groups.isEmpty then .ok r.parts.reverse else .error .unclosedGroup := by
    cases n <;> rfl
  rw [hshape] at h
  split at h
  · next hgroups =>
    cases h
    exact ⟨List.isEmpty_iff.1 hgroups, rfl⟩
  · cases h

theorem finish_end (n : Nat) {r : Reading} (h : r.groups = []) : finish n r [] = .ok r.parts.reverse := by
  have hgroups : r.groups.isEmpty = true := List.isEmpty_iff.2 h
  cases n <;> rw [finish, hgroups, if_pos rfl]

/-- With two asterisks behind a slash, a pattern goes on below what it matches. -/
theorem finish_append {n m : Nat} {r : Reading} {cs : List Char} {glob : Glob} (h : finish n r cs = .ok glob)
    (hn : cs.length < n) (hm : cs.length + 3 < m) (hleads : r.Leads) (hend : cs.getLast?.or r.last ≠ some '/') :
    ∃ glob', finish m r (cs ++ ['/', '*', '*']) = .ok glob' ∧ Continues glob glob' := by
  -- on the steps that are left for the pattern alone; three more are enough for what follows
  induction n generalizing m r cs with
  | zero => exact absurd hn (Nat.not_lt_zero _)
  | succ n ih =>
    obtain ⟨m, rfl⟩ := Nat.exists_eq_add_of_le' hm
    cases cs with
    | nil =>
      -- the slash is read as itself, and the asterisks take it away again
      obtain ⟨hgroups, rfl⟩ := finish_nil h
      have hslash : r.step '/' ['*', '*'] = .ok (r.push (.literal (charBytes '/')) '/', ['*', '*']) := rfl
      refine ⟨_, (finish_of_step hslash).trans ((finish_of_step (step_stars (List.cons_ne_nil _ _) rfl)).trans
        (finish_end _ hgroups)), ?_⟩
      have hparts : ((r.push (.literal (charBytes '/')) '/').pushDirectories .belowDirectory '*').parts.reverse =
          r.parts.reverse ++ [.belowDirectory] := List.reverse_cons
      rw [hparts]
      refine .more fun heq => hend ?_
      have hlast := (hleads [] (List.reverse_eq_iff.1 heq)).2 hgroups
      rw [hlast]
      rfl
    | cons c cs =>
      cases hstep : r.step c cs with
      | error e =>
        rw [finish, hstep] at h
        cases h
      | ok found =>
        obtain ⟨r', rest⟩ := found
        rw [finish_of_step hstep] at h
        obtain ⟨used, hused, hlast⟩ := step_used hstep
        obtain ⟨hsame, hleads'⟩ | ⟨rfl, r₁, hnext, hends⟩ := step_append hstep hleads ['*', '*']
        · have hlength : rest.length ≤ cs.length := by
            have hcount := congrArg List.length hused
            simp only [List.length_cons, List.cons_append, List.length_append] at hcount
            omega
          have hend' : rest.getLast?.or r'.last ≠ some '/' := by
            rw [← hlast, ← List.getLast?_append, ← hused]
            rw [List.getLast?_cons, Option.some_or] at hend
            rwa [List.getLast?_cons]
          rw [List.length_cons] at hn
          obtain ⟨glob', hfinish, hcontinues⟩ :=
            @ih (m + cs.length + 3 + 1) r' rest h (by omega) (by omega) hleads' hend'
          refine ⟨glob', ?_, hcontinues⟩
          rw [← hfinish]
          exact finish_of_step hsame
        · -- the pattern has ended with asterisks of its own
          obtain ⟨hgroups, rfl⟩ := finish_nil h
          refine ⟨_, (finish_of_step hnext).trans ((finish_of_step (step_stars hends.parts hends.last)).trans ?_),
            hends.continues⟩
          rw [hends.next]
          exact finish_end _ hgroups

end Reading

/-- A pattern that does not end with a slash can go on below what it matches. -/
theorem parse_append {pattern : String} {glob : Glob} (h : parse pattern = .ok glob)
    (hend : pattern.toList.getLast? ≠ some '/') :
    ∃ glob', parse (pattern ++ "/**") = .ok glob' ∧ Continues glob glob' := by
  have htext : (pattern ++ "/**").toList = pattern.toList ++ ['/', '*', '*'] := String.toList_append
  rw [parse, htext]
  refine Reading.finish_append h (Nat.lt_succ_self _) ?_ (fun _ heq => by cases heq) (by rwa [Option.or_none])
  rw [List.length_append]
  exact Nat.lt_succ_self _

/-- Behind a slash at the end of a pattern, another one does not count as part of the asterisks. -/
example :
    (parse "**/").toOption.map (fun glob => glob.matchesPath (Path.ofString "a")) = some true ∧
      (parse ("**/" ++ "/**")).toOption.map (fun glob => glob.matchesPath (Path.ofString "a/b")) = some false := by
  decide

end Glob
end Folio
