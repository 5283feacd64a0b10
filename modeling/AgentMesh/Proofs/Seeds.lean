import AgentMesh.CommandLine.Settings
import AgentMesh.Proofs.Text.Trim

/-!
# What is read from a list of seeds

A text is read as a list exactly if its parts between commas hold the entries of the list in this order, with blanks
around them at will, and otherwise nothing but blanks. Whatever was read can be joined with commas and read again.
-/

namespace AgentMesh

namespace Seeds

open Text

/-! ## Parts -/

theorem splitCommas_eq_splitOn (s : List Char) : splitCommas s = s.splitOn ',' := by
  fun_induction splitCommas s with
  | case1 => rw [List.splitOn_nil]
  | case2 r ih => rw [List.splitOn_cons_eq_if_modifyHead, if_pos (beq_self_eq_true _), ih]
  | case3 c r hc hnone ih => exact absurd (ih.symm.trans hnone) (List.splitOn_ne_nil _ _)
  | case4 c r hc part parts hparts ih =>
      have hcomma : ¬ (c == ',') = true := by simpa using hc
      rw [List.splitOn_cons_eq_if_modifyHead, if_neg hcomma, ← ih, hparts, List.modifyHead_cons]

theorem comma_not_mem_of_mem_splitCommas {s part : List Char} (h : part ∈ splitCommas s) : ',' ∉ part := by
  fun_induction splitCommas s generalizing part with
  | case1 =>
      rw [List.mem_singleton.1 h]
      exact List.not_mem_nil
  | case2 r ih =>
      rcases List.mem_cons.1 h with rfl | h
      · exact List.not_mem_nil
      · exact ih h
  | case3 c r hc hnone ih =>
      rw [List.mem_singleton.1 h, List.mem_singleton]
      exact fun heq => hc heq.symm
  | case4 c r hc first parts hparts ih =>
      rw [hparts] at ih
      rcases List.mem_cons.1 h with rfl | h
      · rw [List.mem_cons, not_or]
        exact ⟨fun heq => hc heq.symm, ih List.mem_cons_self⟩
      · exact ih (List.mem_cons_of_mem _ h)

theorem entries_append (a b : List Char) : entries (a ++ ',' :: b) = entries a ++ entries b := by
  simp only [entries, splitCommas_eq_splitOn, List.splitOn_append_cons_self, List.map_append, List.filter_append]

theorem parse_append (a b : String) : parse (a ++ "," ++ b) = parse a ++ parse b := by
  have hjoined : (a ++ "," ++ b).toList = a.toList ++ ',' :: b.toList := by simp [String.toList_append]
  rw [parse, hjoined, entries_append, List.map_append]
  rfl

theorem parse_intercalate (parts : List String) : parse (",".intercalate parts) = parts.flatMap parse := by
  induction parts with
  | nil => rfl
  | cons part parts ih =>
      rw [List.flatMap_cons, ← ih]
      cases parts with
      | nil => simp [parse, entries, splitCommas, trim]
      | cons next parts => rw [String.intercalate_cons_cons, parse_append]

/-! ## Entries -/

/-- What a list of seeds may hold: a text without commas, which is not empty and has no blank at either end. -/
structure IsEntry (e : String) : Prop where
  ne_empty : e ≠ ""
  comma_not_mem : ',' ∉ e.toList
  trimmed : Trimmed e.toList

theorem isEntry_iff {e : String} : IsEntry e ↔ e ≠ "" ∧ ',' ∉ e.toList ∧ Trimmed e.toList :=
  ⟨fun h => ⟨h.ne_empty, h.comma_not_mem, h.trimmed⟩, fun h => ⟨h.1, h.2.1, h.2.2⟩⟩

instance (e : String) : Decidable (IsEntry e) :=
  decidable_of_iff' _ isEntry_iff

theorem isEntry_of_mem_parse {s e : String} (h : e ∈ parse s) : IsEntry e := by
  simp only [parse, entries, List.mem_map, List.mem_filter] at h
  obtain ⟨_, ⟨⟨part, hpart, rfl⟩, hfull⟩, rfl⟩ := h
  refine ⟨?_, ?_, ?_⟩
  · intro hempty
    have hnil : trim part = [] := by simpa using congrArg String.toList hempty
    simp [hnil] at hfull
  · rw [String.toList_ofList]
    exact fun hcomma => comma_not_mem_of_mem_splitCommas hpart ((padded_trim part).subset hcomma)
  · rw [String.toList_ofList]
    exact trimmed_trim part

theorem parse_of_comma_not_mem {s : String} (h : ',' ∉ s.toList) :
    parse s = if trim s.toList = [] then [] else [String.ofList (trim s.toList)] := by
  rw [parse, entries, splitCommas_eq_splitOn, List.splitOn_eq_singleton h]
  by_cases hnil : trim s.toList = [] <;> simp [hnil]

theorem comma_not_mem_of_blanks {s : List Char} (h : Blanks s) : ',' ∉ s := by
  intro hcomma
  cases h ',' hcomma

theorem comma_not_mem_of_padded {s text : List Char} (hs : ',' ∉ s) (h : Padded s text) : ',' ∉ text := by
  obtain ⟨before, after, hbefore, hafter, rfl⟩ := h
  simp [comma_not_mem_of_blanks hbefore, comma_not_mem_of_blanks hafter, hs]

theorem parse_of_padded {e part : String} (he : IsEntry e) (h : Padded e.toList part.toList) : parse part = [e] := by
  have hfull : e.toList ≠ [] := by simpa using he.ne_empty
  rw [parse_of_comma_not_mem (comma_not_mem_of_padded he.comma_not_mem h), trim_eq_iff.2 ⟨he.trimmed, h⟩,
    if_neg hfull, String.ofList_toList]

theorem parse_of_blanks {part : String} (h : Blanks part.toList) : parse part = [] := by
  have htrim : trim part.toList = [] := trim_eq_iff.2 ⟨⟨by simp, by simp⟩, padded_nil_iff.2 h⟩
  rw [parse_of_comma_not_mem (comma_not_mem_of_blanks h), if_pos htrim]

/-! ## Written lists -/

/-- The parts hold the entries in this order, each with blanks around it; all other parts are blank. -/
inductive Holds : List String → List String → Prop
  | nil : Holds [] []
  | entry {part parts e l} : Padded e.toList part.toList → Holds parts l → Holds (part :: parts) (e :: l)
  | gap {part parts l} : Blanks part.toList → Holds parts l → Holds (part :: parts) l

theorem Holds.refl (l : List String) : Holds l l := by
  induction l with
  | nil => exact .nil
  | cons e l ih => exact .entry (.refl _) ih

theorem Holds.parse_eq {parts l : List String} (h : Holds parts l) (hl : ∀ e ∈ l, IsEntry e) :
    parse (",".intercalate parts) = l := by
  -- Each part is read on its own, since no comma comes from an entry or from blanks.
  rw [parse_intercalate]
  induction h with
  | nil => rfl
  | entry hpart _ ih =>
      rw [List.forall_mem_cons] at hl
      rw [List.flatMap_cons, parse_of_padded hl.1 hpart, ih hl.2, List.singleton_append]
  | gap hpart _ ih => rw [List.flatMap_cons, parse_of_blanks hpart, ih hl, List.nil_append]

theorem holds_trim (parts : List (List Char)) :
    Holds (parts.map String.ofList) (((parts.map trim).filter (!·.isEmpty)).map String.ofList) := by
  induction parts with
  | nil => exact .nil
  | cons part parts ih =>
      have hpadded := padded_trim part
      simp only [List.map_cons, List.filter_cons]
      split
      · exact .entry (by simpa using hpadded) ih
      · -- A part of which nothing is left was blank.
        rename_i hempty
        have hnil : trim part = [] := by simpa using hempty
        rw [hnil, padded_nil_iff] at hpadded
        exact .gap (by simpa using hpadded) ih

theorem exists_holds_parse (s : String) : ∃ parts, Holds parts (parse s) ∧ ",".intercalate parts = s := by
  refine ⟨(splitCommas s.toList).map String.ofList, holds_trim _, ?_⟩
  have hid : String.toList ∘ String.ofList = id := funext fun _ => String.toList_ofList
  rw [← String.toList_inj, String.toList_intercalate, List.map_map, hid, List.map_id, splitCommas_eq_splitOn]
  exact List.intercalate_splitOn ','

theorem parse_eq_iff {s : String} {l : List String} :
    parse s = l ↔ (∀ e ∈ l, IsEntry e) ∧ ∃ parts, Holds parts l ∧ ",".intercalate parts = s := by
  constructor
  · rintro rfl
    exact ⟨fun e => isEntry_of_mem_parse, exists_holds_parse s⟩
  · rintro ⟨hl, parts, hparts, rfl⟩
    exact hparts.parse_eq hl

example : parse " a:1, b:2,,c:3 " = ["a:1", "b:2", "c:3"] := by decide +kernel

theorem parse_intercalate_parse (s : String) : parse (",".intercalate (parse s)) = parse s :=
  (Holds.refl _).parse_eq fun _ => isEntry_of_mem_parse

end Seeds

/-! ## Seeds from the command line -/

theorem AgentFlags.apply_seeds_again {f : AgentFlags} {text : String} (h : f.seedNodes = some text) (c : AgentConfig) :
    { f with seedNodes := some (",".intercalate (f.apply c).seeds) }.apply c = f.apply c := by
  simp [apply, h, Seeds.parse_intercalate_parse]

theorem ConsoleFlags.apply_seeds_again {f : ConsoleFlags} {text : String} (h : f.seedNodes = some text)
    (c : ConsoleConfig) :
    { f with seedNodes := some (",".intercalate (f.apply c).seeds) }.apply c = f.apply c := by
  simp [apply, mode?, h, Seeds.parse_intercalate_parse]

namespace Seeds

/--
All that is read from a text are entries, and from two texts with a comma between them is read what is read from one
and then from the other. A list of entries is read from the texts whose parts hold it and from no others; one of them
is the list joined with commas. So what was read is read again when it is joined with commas, and seeds from the
command line, given again as they were taken, make the same settings.
-/
theorem written_lists_read_back :
    (∀ s, ∀ e ∈ parse s, IsEntry e) ∧
    (∀ a b, parse (a ++ "," ++ b) = parse a ++ parse b) ∧
    (∀ l, (∀ e ∈ l, IsEntry e) →
      parse (",".intercalate l) = l ∧ ∀ s, parse s = l ↔ ∃ parts, Holds parts l ∧ ",".intercalate parts = s) ∧
    (∀ s, parse (",".intercalate (parse s)) = parse s) ∧
    (∀ (f : AgentFlags) (c : AgentConfig) (text : String), f.seedNodes = some text →
      { f with seedNodes := some (",".intercalate (f.apply c).seeds) }.apply c = f.apply c) ∧
    ∀ (f : ConsoleFlags) (c : ConsoleConfig) (text : String), f.seedNodes = some text →
      { f with seedNodes := some (",".intercalate (f.apply c).seeds) }.apply c = f.apply c := by
  refine ⟨fun s e => isEntry_of_mem_parse, parse_append, fun l hl => ⟨(Holds.refl l).parse_eq hl, fun s => ?_⟩,
    parse_intercalate_parse, fun f c text h => f.apply_seeds_again h c, fun f c text h => f.apply_seeds_again h c⟩
  rw [parse_eq_iff, and_iff_right hl]

/-- Blanks of several kinds, and parts that hold nothing. -/
def sampleText : String := " a:1,\u2003b c:2\u00A0,,\t"

def sampleEntries : List String := ["a:1", "b c:2"]

theorem written_lists_read_back_sample :
    parse sampleText = sampleEntries ∧ IsEntry "b c:2" ∧ parse "a:1,b c:2" = sampleEntries ∧
    ({ bindPort := some 9000, seedNodes := some "a:1,b c:2" } : AgentFlags).apply {} =
      ({ bindPort := some 9000, seedNodes := some sampleText } : AgentFlags).apply {} ∧
    ({ docker := true, seedNodes := some "a:1,b c:2" } : ConsoleFlags).apply {} =
      ({ docker := true, seedNodes := some sampleText } : ConsoleFlags).apply {} := by
  obtain ⟨hentries, -, hwritten, -, hagent, hconsole⟩ := written_lists_read_back
  obtain ⟨hjoined, hread⟩ := hwritten sampleEntries (by decide +kernel)
  have hparts : Holds [" a:1", "\u2003b c:2\u00A0", "", "\t"] sampleEntries :=
    .entry ⟨[' '], [], by decide, by decide, by decide +kernel⟩
      (.entry ⟨['\u2003'], ['\u00A0'], by decide, by decide, by decide +kernel⟩
        (.gap (by decide +kernel) (.gap (by decide +kernel) .nil)))
  have hsample : parse sampleText = sampleEntries := (hread sampleText).2 ⟨_, hparts, by decide +kernel⟩
  have hmember : "b c:2" ∈ parse sampleText := by
    rw [hsample]
    decide +kernel
  have htext : ",".intercalate sampleEntries = "a:1,b c:2" := by decide +kernel
  refine ⟨hsample, hentries _ _ hmember, htext ▸ hjoined, ?_, ?_⟩
  · have hagain := hagent { bindPort := some 9000, seedNodes := some sampleText } {} sampleText rfl
    have hseeds : (({ bindPort := some 9000, seedNodes := some sampleText } : AgentFlags).apply {}).seeds =
      sampleEntries := hsample
    rwa [hseeds, htext] at hagain
  · have hagain := hconsole { docker := true, seedNodes := some sampleText } {} sampleText rfl
    have hseeds : (({ docker := true, seedNodes := some sampleText } : ConsoleFlags).apply {}).seeds =
      sampleEntries := hsample
    rwa [hseeds, htext] at hagain

end Seeds

end AgentMesh
