import Folio.Proofs.Precedence

/-!
# Folio.Proofs.SourceFlags

The flags for the source among the arguments of a run.

* `sourceFlags`: these flags, in order. The value of an option, and what stands behind two hyphens, is none of them.
* `Reading.Holds`: what has been read of them. At most one of the two is set.
* `meetLong_holds`, `meetShort_holds`, `meetWord_holds`: what one word does to that.
* `parse_includeChoice`: for arguments that are accepted, the last flag is the choice on the source.
-/

namespace Folio

/-- The choices for pages in a command. -/
def Command.rendering : Command → RenderArguments
  | .document _ _ _ render => render
  | .directory _ _ _ render => render

namespace CommandLine

/-! ### Flags -/

/-- The choice that a word makes on the source, where it is one of the two flags. -/
def sourceFlag? (word : String) : Option Bool :=
  if word = "--include-source" then some true
  else if word = "--no-include-source" then some false
  else none

/-- Whether letters after a hyphen end with an option that waits for its value. -/
def awaitsShort (command : CommandName) : List Char → Bool
  | [] => false
  | c :: cs =>
    match Switch.ofShort? command c with
    | none => false
    | some switch => if switch.takesValue then cs.isEmpty else awaitsShort command cs

/-- Whether a word is an option that waits for its value. -/
def awaitsValue (command : CommandName) (word : String) : Bool :=
  match word.toList with
  | '-' :: '-' :: text => !text.contains '=' && (Switch.ofLong? command (String.ofList text)).any Switch.takesValue
  | '-' :: cs => awaitsShort command cs
  | _ => false

/-- The flags among the arguments of a command, where `waiting` says whether the first word is the value of an
option. -/
def flagsAfter (command : CommandName) : Bool → List String → List Bool
  | _, [] => []
  | true, _ :: words => flagsAfter command false words
  | false, word :: words =>
    if word = "--" then []
    else (sourceFlag? word).toList ++ flagsAfter command (awaitsValue command word) words

/-- The flags for the source among all arguments. They stand behind the name of a command. -/
def sourceFlags : List String → List Bool
  | [] => []
  | word :: words =>
    match CommandName.ofWord? word with
    | some command => flagsAfter command false words
    | none => sourceFlags words

/-- The choice that a switch makes on the source. -/
def Switch.choice? : Switch → Option Bool
  | .includeSource => some true
  | .noIncludeSource => some false
  | _ => none

theorem choice?_of_takesValue {switch : Switch} (h : switch.takesValue = true) : switch.choice? = none := by
  cases switch <;> first | rfl | cases h

theorem choice?_ofLong {command : CommandName} {name : String} {switch : Switch}
    (h : Switch.ofLong? command name = some switch) : switch.choice? = sourceFlag? ("--" ++ name) := by
  rw [Switch.ofLong?.eq_def] at h
  split at h
  all_goals first
    | (cases h; decide)
    | (split at h <;> cases h; decide)
    | cases h

theorem choice?_ofShort {command : CommandName} {c : Char} {switch : Switch}
    (h : Switch.ofShort? command c = some switch) : switch.choice? = none := by
  rw [Switch.ofShort?.eq_def] at h
  split at h
  all_goals first
    | (cases h; rfl)
    | (split at h <;> cases h; rfl)
    | cases h

theorem sourceFlag?_of_equals {word : String} (h : '=' ∈ word.toList) : sourceFlag? word = none := by
  rw [sourceFlag?, if_neg, if_neg]
  all_goals
    rintro rfl
    revert h
    decide

theorem exists_of_sourceFlag? {word : String} {choice : Bool} (h : sourceFlag? word = some choice) :
    ∃ text, word.toList = '-' :: '-' :: text := by
  rw [sourceFlag?] at h
  split at h
  · next heq => exact ⟨"include-source".toList, by rw [heq]; rfl⟩
  · split at h
    · next heq => exact ⟨"no-include-source".toList, by rw [heq]; rfl⟩
    · cases h

theorem awaitsValue_long (command : CommandName) {word : String} {text : List Char}
    (h : word.toList = '-' :: '-' :: text) : awaitsValue command word =
      (!text.contains '=' && (Switch.ofLong? command (String.ofList text)).any Switch.takesValue) := by
  rw [awaitsValue, h]
  rfl

theorem awaitsValue_short (command : CommandName) {word : String} {c : Char} {cs : List Char}
    (h : word.toList = '-' :: c :: cs) (hc : c ≠ '-') : awaitsValue command word = awaitsShort command (c :: cs) := by
  rw [awaitsValue, h]
  split
  · next heq =>
    cases heq
    exact absurd rfl hc
  · next heq =>
    cases heq
    rfl
  · next hnot => exact absurd rfl (hnot (c :: cs))

theorem awaitsValue_argument (command : CommandName) {word : String}
    (h : ∀ c text, word.toList ≠ '-' :: c :: text) : awaitsValue command word = false := by
  rw [awaitsValue]
  split
  · next heq => exact absurd heq (h _ _)
  · next cs _ heq =>
    cases cs with
    | nil => rfl
    | cons c cs => exact absurd heq (h c cs)
  · rfl

theorem sourceFlag?_eq_none {word : String} (h : ∀ text, word.toList ≠ '-' :: '-' :: text) : sourceFlag? word = none := by
  cases hflag : sourceFlag? word with
  | none => rfl
  | some choice =>
    obtain ⟨text, htext⟩ := exists_of_sourceFlag? hflag
    exact absurd htext (h text)

theorem getLast?_flags (flag : Option Bool) (flags : List Bool) (last : Option Bool) :
    (flag.toList ++ flags).getLast?.or last = flags.getLast?.or (flag.or last) := by
  cases flag with
  | none => rfl
  | some choice => rw [List.getLast?_append, Option.or_assoc]; rfl

/-! ### Readings -/

namespace Reading

/-- What has been read of the flags: the last one is set. -/
structure Holds (r : Reading) (last : Option Bool) : Prop where
  includes : r.render.includeSource = (last == some true)
  excludes : r.render.noIncludeSource = (last == some false)

/-- An option waits for its value. -/
def Waits (r : Reading) : Prop :=
  ∃ switch, r.pending = .value switch none

variable {command : CommandName} {r r' : Reading} {last : Option Bool}

theorem holds_start : Holds {} none :=
  ⟨rfl, rfl⟩

theorem not_waits_start : ¬ Waits {} := by
  rintro ⟨switch, h⟩
  cases h

theorem Holds.includeChoice (h : r.Holds last) : r.render.includeChoice = last := by
  rw [RenderArguments.includeChoice, h.includes, h.excludes]
  rcases last with - | (_ | _) <;> rfl

/-- Where nothing but other choices has changed, the flags are as they were. -/
theorem Holds.of_eq (h : r.Holds last) (hincludes : r'.render.includeSource = r.render.includeSource)
    (hexcludes : r'.render.noIncludeSource = r.render.noIncludeSource) : r'.Holds last :=
  ⟨hincludes.trans h.includes, hexcludes.trans h.excludes⟩

theorem of_map_ok {α β : Type} {f : α → β} {result : Except UsageError α} {y : β} (h : result.map f = .ok y) :
    ∃ x, result = .ok x ∧ f x = y := by
  cases result with
  | error e => cases h
  | ok x => exact ⟨x, rfl, Except.ok.inj h⟩

theorem assign_holds {switch : Switch} {text : String} (h : r.assign switch text = .ok r') (hlast : r.Holds last) :
    r'.Holds last ∧ r'.pending = r.pending := by
  cases switch with
  | output | template | layoutRoot | format =>
    obtain ⟨value, -, rfl⟩ := of_map_ok h
    exact ⟨hlast.of_eq rfl rfl, rfl⟩
  | replacement =>
    rw [assign] at h
    split at h
    · cases h
    · cases h
      exact ⟨hlast.of_eq rfl rfl, rfl⟩
  | _ =>
    cases h
    exact ⟨hlast.of_eq rfl rfl, rfl⟩

/-- What is pending can be taken only if no option waits for its value. -/
theorem settle_holds (h : r.settle = .ok r') (hlast : r.Holds last) :
    r'.Holds last ∧ r'.pending = .nothing ∧ ¬ r.Waits := by
  rw [settle] at h
  cases hpending : r.pending with
  | nothing =>
    rw [hpending] at h
    cases h
    refine ⟨hlast, hpending, ?_⟩
    rintro ⟨switch, hwaits⟩
    cases hpending.symm.trans hwaits
  | value switch text =>
    rw [hpending] at h
    cases text with
    | none => cases h
    | some text =>
      obtain ⟨hkept, hnothing⟩ := assign_holds h (hlast.of_eq rfl rfl)
      refine ⟨hkept, hnothing, ?_⟩
      rintro ⟨other, hwaits⟩
      cases hpending.symm.trans hwaits
  | argument text =>
    rw [hpending] at h
    obtain ⟨path, -, rfl⟩ := of_map_ok h
    refine ⟨hlast.of_eq rfl rfl, rfl, ?_⟩
    rintro ⟨switch, hwaits⟩
    cases hpending.symm.trans hwaits

theorem not_waits_of_nothing (h : r.pending = .nothing) : ¬ r.Waits := by
  rintro ⟨switch, hwaits⟩
  cases h.symm.trans hwaits

/-- A flag for the source takes back the other one. -/
theorem raise_holds {switch : Switch} (h : r.raise switch = .ok r') (hlast : r.Holds last) :
    r'.Holds (switch.choice?.or last) ∧ r'.pending = r.pending := by
  cases switch with
  | verbose =>
    rw [raise] at h
    split at h
    · cases h
    · cases h
      exact ⟨hlast.of_eq rfl rfl, rfl⟩
  | includeSource | noIncludeSource =>
    rw [raise] at h
    split at h
    · cases h
    · cases h
      exact ⟨⟨rfl, rfl⟩, rfl⟩
  | help => cases h
  | _ =>
    cases h
    exact ⟨hlast, rfl⟩

theorem meetFlag_holds {switch : Switch} (h : r.meetFlag switch = .ok r') (hlast : r.Holds last) :
    r'.Holds (switch.choice?.or last) ∧ ¬ r'.Waits ∧ ¬ r.Waits := by
  rw [meetFlag] at h
  cases hsettle : r.settle with
  | error e =>
    rw [hsettle] at h
    cases h
  | ok r₁ =>
    rw [hsettle] at h
    obtain ⟨hlast₁, hnothing, hwaits⟩ := settle_holds hsettle hlast
    obtain ⟨hlast', hpending⟩ := raise_holds h hlast₁
    exact ⟨hlast', not_waits_of_nothing (hpending.trans hnothing), hwaits⟩

/-- An option waits for its value if none is attached. -/
theorem meetOption_holds {switch : Switch} {value : Option String} (h : r.meetOption switch value = .ok r')
    (hlast : r.Holds last) : r'.Holds last ∧ (r'.Waits ↔ value = none) ∧ ¬ r.Waits := by
  rw [meetOption] at h
  cases hsettle : r.settle with
  | error e =>
    rw [hsettle] at h
    cases h
  | ok r₁ =>
    rw [hsettle] at h
    obtain ⟨hlast₁, hnothing, hwaits⟩ := settle_holds hsettle hlast
    cases value with
    | none =>
      cases h
      exact ⟨hlast₁.of_eq rfl rfl, iff_of_true ⟨switch, rfl⟩ rfl, hwaits⟩
    | some text =>
      obtain ⟨hlast', hpending⟩ := assign_holds h hlast₁
      exact ⟨hlast', iff_of_false (not_waits_of_nothing (hpending.trans hnothing)) (by simp), hwaits⟩

theorem meetLong_holds {word : String} {text : List Char} (hword : word.toList = '-' :: '-' :: text)
    (h : r.meetLong command text = .ok r') (hlast : r.Holds last) :
    r'.Holds ((sourceFlag? word).or last) ∧ (r'.Waits ↔ awaitsValue command word = true) ∧ ¬ r.Waits := by
  rw [meetLong] at h
  rw [awaitsValue_long command hword]
  cases hsplit : Text.splitOnce '=' text with
  | none =>
    have hequals : text.contains '=' = false := by
      rw [Bool.eq_false_iff, Ne, List.contains_iff_mem]
      intro hmem
      obtain ⟨name, value, heq, hnot⟩ := List.eq_append_cons_of_mem hmem
      rw [Text.splitOnce_eq_some.2 ⟨heq, hnot⟩] at hsplit
      cases hsplit
    have hname : word = "--" ++ String.ofList text := by
      rw [← String.toList_inj, hword, String.toList_append]
      simp
    rw [hsplit] at h
    dsimp only at h
    cases hlong : Switch.ofLong? command (String.ofList text) with
    | none =>
      rw [hlong] at h
      cases h
    | some switch =>
      have hchoice : switch.choice? = sourceFlag? word := hname ▸ choice?_ofLong hlong
      rw [hlong] at h
      dsimp only at h
      rw [hequals, ← hchoice]
      cases htakes : switch.takesValue with
      | true =>
        rw [htakes, if_pos rfl] at h
        obtain ⟨hlast', hwaits', hwaits⟩ := meetOption_holds h hlast
        rw [choice?_of_takesValue htakes]
        exact ⟨hlast', hwaits'.trans (by simp [htakes]), hwaits⟩
      | false =>
        rw [htakes, if_neg Bool.false_ne_true] at h
        obtain ⟨hlast', hwaits', hwaits⟩ := meetFlag_holds h hlast
        exact ⟨hlast', iff_of_false hwaits' (by simp [htakes]), hwaits⟩
  | some parts =>
    -- the value is attached
    obtain ⟨name, value⟩ := parts
    obtain ⟨htext, -⟩ := Text.splitOnce_eq_some.1 hsplit
    have hmem : '=' ∈ text := htext ▸ List.mem_append_right _ List.mem_cons_self
    have hflag : sourceFlag? word = none :=
      sourceFlag?_of_equals (hword ▸ List.mem_cons_of_mem _ (List.mem_cons_of_mem _ hmem))
    rw [hsplit] at h
    dsimp only at h
    rw [hflag]
    cases hlong : Switch.ofLong? command (String.ofList name) with
    | none =>
      rw [hlong] at h
      cases h
    | some switch =>
      rw [hlong] at h
      dsimp only at h
      cases htakes : switch.takesValue with
      | true =>
        rw [htakes, if_pos rfl] at h
        obtain ⟨hlast', hwaits', hwaits⟩ := meetOption_holds h hlast
        exact ⟨hlast', hwaits'.trans (by simp [hmem]), hwaits⟩
      | false =>
        rw [htakes, if_neg Bool.false_ne_true] at h
        cases h

/-- Letters after one hyphen. They are none of the flags for the source. -/
theorem meetShort_holds {cs : List Char} (hne : cs ≠ []) (h : r.meetShort command cs = .ok r') (hlast : r.Holds last) :
    r'.Holds last ∧ (r'.Waits ↔ awaitsShort command cs = true) ∧ ¬ r.Waits := by
  induction cs generalizing r with
  | nil => exact absurd rfl hne
  | cons c cs ih =>
    rw [meetShort.eq_def] at h
    dsimp only at h
    rw [awaitsShort]
    cases hshort : Switch.ofShort? command c with
    | none =>
      rw [hshort] at h
      cases h
    | some switch =>
      rw [hshort] at h
      dsimp only at h ⊢
      -- A letter with a value takes the rest of the word for it, or waits. A flag leaves the rest to the induction.
      cases htakes : switch.takesValue with
      | true =>
        rw [htakes, if_pos rfl] at h
        obtain ⟨hlast', hwaits', hwaits⟩ := meetOption_holds h hlast
        rw [if_pos rfl]
        refine ⟨hlast', hwaits'.trans ?_, hwaits⟩
        cases cs with
        | nil => simp
        | cons d cs => split <;> simp_all
      | false =>
        rw [htakes, if_neg Bool.false_ne_true] at h
        rw [if_neg Bool.false_ne_true]
        cases hflag : r.meetFlag switch with
        | error e =>
          rw [hflag] at h
          cases h
        | ok r₁ =>
          rw [hflag] at h
          obtain ⟨hlast₁, hwaits₁, hwaits⟩ := meetFlag_holds hflag hlast
          rw [choice?_ofShort hshort] at hlast₁
          by_cases hnil : cs = []
          · subst hnil
            cases h
            exact ⟨hlast₁, iff_of_false hwaits₁ (by simp [awaitsShort]), hwaits⟩
          · obtain ⟨hlast', hwaits', -⟩ := ih hnil h hlast₁
            exact ⟨hlast', hwaits', hwaits⟩

theorem meetArgument_holds {word : String} (h : r.meetArgument command word = .ok r') (hlast : r.Holds last) :
    r'.Holds last ∧ ¬ r'.Waits ∧ ¬ r.Waits := by
  rw [meetArgument] at h
  split at h
  · cases h
  · cases hsettle : r.settle with
    | error e =>
      rw [hsettle] at h
      cases h
    | ok r₁ =>
      rw [hsettle] at h
      cases h
      obtain ⟨hlast₁, -, hwaits⟩ := settle_holds hsettle hlast
      refine ⟨hlast₁.of_eq rfl rfl, ?_, hwaits⟩
      rintro ⟨switch, hpending⟩
      cases hpending

theorem meetWord_holds {word : String} (h : r.meetWord command word = .ok r') (hlast : r.Holds last) :
    r'.Holds last ∧ ¬ r'.Waits := by
  rw [meetWord] at h
  split at h
  · cases h
    refine ⟨hlast.of_eq rfl rfl, ?_⟩
    rintro ⟨switch, hpending⟩
    cases hpending
  · obtain ⟨hlast', hwaits, -⟩ := meetArgument_holds h hlast
    exact ⟨hlast', hwaits⟩

/-! ### Words -/

/-- Behind two hyphens there are no flags. -/
theorem readAll_plain {words : List String} (h : readAll command true r words = .ok r') (hlast : r.Holds last) :
    r'.Holds last ∧ ¬ r.Waits := by
  induction words generalizing r with
  | nil =>
    obtain ⟨hlast', -, hwaits⟩ := settle_holds h hlast
    exact ⟨hlast', hwaits⟩
  | cons word words ih =>
    rw [readAll] at h
    cases hmeet : r.meetArgument command word with
    | error e =>
      rw [hmeet] at h
      cases h
    | ok r₁ =>
      rw [hmeet] at h
      obtain ⟨hlast₁, -, hwaits⟩ := meetArgument_holds hmeet hlast
      exact ⟨(ih h hlast₁).1, hwaits⟩

/-- The last flag of the words that are read is set in the end. -/
theorem readAll_holds {words : List String} {waiting : Bool} (h : readAll command false r words = .ok r')
    (hlast : r.Holds last) (hwaiting : r.Waits ↔ waiting = true) :
    r'.Holds ((flagsAfter command waiting words).getLast?.or last) := by
  induction words generalizing r last waiting with
  | nil =>
    rw [readAll] at h
    cases waiting <;> exact (settle_holds h hlast).1
  | cons word words ih =>
    rw [readAll.eq_def] at h
    dsimp only at h
    split at h
    · -- two hyphens, and no option in front that would wait for them
      next hword =>
      obtain ⟨hlast', hwaits⟩ := readAll_plain h hlast
      obtain rfl : word = "--" := String.toList_inj.1 hword
      cases waiting with
      | true => exact absurd (hwaiting.2 rfl) hwaits
      | false => rw [flagsAfter, if_pos rfl]; exact hlast'
    · next text hnot hword =>
      cases hmeet : r.meetLong command text with
      | error e =>
        rw [hmeet] at h
        cases h
      | ok r₁ =>
        rw [hmeet] at h
        obtain ⟨hlast₁, hwaits₁, hwaits⟩ := meetLong_holds hword hmeet hlast
        obtain rfl : waiting = false := Bool.eq_false_iff.2 fun hw => hwaits (hwaiting.2 hw)
        have hne : word ≠ "--" := by
          rintro rfl
          exact hnot (List.cons.inj (List.cons.inj hword).2).2.symm
        rw [flagsAfter, if_neg hne, getLast?_flags]
        exact ih h hlast₁ hwaits₁
    · next c text _ hc hword =>
      cases hmeet : r.meetShort command (c :: text) with
      | error e =>
        rw [hmeet] at h
        cases h
      | ok r₁ =>
        rw [hmeet] at h
        obtain ⟨hlast₁, hwaits₁, hwaits⟩ := meetShort_holds (by simp) hmeet hlast
        obtain rfl : waiting = false := Bool.eq_false_iff.2 fun hw => hwaits (hwaiting.2 hw)
        have hflag : sourceFlag? word = none := sourceFlag?_eq_none fun other heq => by
          rw [hword] at heq
          exact hc (List.cons.inj (List.cons.inj heq).2).1
        have hne : word ≠ "--" := by
          rintro rfl
          exact hc (List.cons.inj (List.cons.inj hword).2).1.symm
        rw [flagsAfter, if_neg hne, getLast?_flags, hflag, awaitsValue_short command hword hc]
        exact ih h hlast₁ hwaits₁
    · next hnot hlong hshort =>
      cases hmeet : r.meetWord command word with
      | error e =>
        rw [hmeet] at h
        cases h
      | ok r₁ =>
        rw [hmeet] at h
        obtain ⟨hlast₁, hwaits₁⟩ := meetWord_holds hmeet hlast
        have hnext := @ih r₁ last false h hlast₁ (iff_of_false hwaits₁ Bool.false_ne_true)
        cases waiting with
        | true => exact hnext
        | false =>
          have hne : word ≠ "--" := by
            rintro rfl
            exact hnot rfl
          rw [flagsAfter, if_neg hne, getLast?_flags, sourceFlag?_eq_none hlong, awaitsValue_argument command hshort]
          exact hnext

end Reading

/-! ### All arguments -/

theorem rendering_of_toCommand? {name : CommandName} {r : Reading} {command : Command}
    (h : r.toCommand? name = some command) : command.rendering = r.render := by
  cases name with
  | markdown | script =>
    obtain ⟨input, -, rfl⟩ := Option.map_eq_some_iff.1 h
    rfl
  | directory =>
    rw [Reading.toCommand?] at h
    split at h
    · cases h
      rfl
    · cases h

theorem parseCommand_includeChoice {verbose : Bool} {name : CommandName} {words : List String} {line : CommandLine}
    (h : parseCommand verbose name words = .ok line) :
    line.command.rendering.includeChoice = (flagsAfter name false words).getLast? := by
  rw [parseCommand] at h
  cases hread : Reading.readAll name false {} words with
  | error e =>
    rw [hread] at h
    cases h
  | ok r =>
    rw [hread] at h
    dsimp only at h
    cases hcommand : r.toCommand? name with
    | none =>
      rw [hcommand] at h
      cases h
    | some command =>
      rw [hcommand] at h
      cases h
      have hholds := Reading.readAll_holds hread Reading.holds_start
        (iff_of_false Reading.not_waits_start Bool.false_ne_true)
      rw [Option.or_none] at hholds
      rw [rendering_of_toCommand? hcommand, hholds.includeChoice]

theorem parseFrom_includeChoice {verbose : Bool} {words : List String} {line : CommandLine}
    (h : parseFrom verbose words = .ok line) : line.command.rendering.includeChoice = (sourceFlags words).getLast? := by
  induction words generalizing verbose with
  | nil => cases h
  | cons word words ih =>
    rw [parseFrom.eq_def] at h
    dsimp only at h
    rw [sourceFlags]
    split at h
    · cases h
    · cases hname : CommandName.ofWord? word with
      | some name =>
        rw [hname] at h
        exact parseCommand_includeChoice h
      | none =>
        -- flags before the command, none of them for the source
        rw [hname] at h
        dsimp only at h ⊢
        split at h
        · cases h
        · split at h
          · cases h
          · exact ih h
        · split at h
          · cases h
          · exact ih h
        · cases h

/-- The last flag for the source counts; there is no choice without one. -/
theorem parse_includeChoice {words : List String} {line : CommandLine} (h : parse words = .ok line) :
    line.command.rendering.includeChoice = (sourceFlags words).getLast? :=
  parseFrom_includeChoice h

end CommandLine
end Folio
