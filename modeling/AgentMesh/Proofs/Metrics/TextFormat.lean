import AgentMesh.Metrics.Exposition
import AgentMesh.Proofs.Text.Digits
import AgentMesh.Text.Numeral

/-!
# Reading the text exposition

A sample line is a name, labels in braces, and a value after a blank. The value of a label stands in quotes, in which a
backslash, a quote and a line feed are escaped. What is written of a sample is read back from its line, whatever the
values of its labels are.
-/

namespace AgentMesh.Metrics.Exposition

/-! ## Readers -/

/-- The characters of the names of metrics and labels. -/
def isNameChar (c : Char) : Bool :=
  c.isAlphanum || c = '_'

/-- What a character after a backslash stands for. -/
def unescape? : Char → Option Char
  | '\\' => some '\\'
  | '"' => some '"'
  | 'n' => some '\n'
  | _ => none

/-- The value of a label up to the closing quote, and what follows the quote. -/
def readText : List Char → Option (List Char × List Char)
  | [] => none
  | '"' :: r => some ([], r)
  | '\\' :: c :: r => do
      let c ← unescape? c
      (readText r).map fun (text, rest) => (c :: text, rest)
  | c :: r => (readText r).map fun (text, rest) => (c :: text, rest)

theorem length_readText {s text rest : List Char} (h : readText s = some (text, rest)) : rest.length < s.length := by
  fun_induction readText s generalizing text with
  | case1 => cases h
  | case2 r =>
      cases h
      exact Nat.lt_succ_self _
  | case3 c r ih =>
      simp only [Option.bind_eq_bind, Option.bind_eq_some_iff, Option.map_eq_some_iff, Prod.mk.injEq] at h
      obtain ⟨c', -, ⟨text', rest'⟩, hread, -, rfl⟩ := h
      exact Nat.lt_add_right 2 (ih hread)
  | case4 c r _ _ ih =>
      simp only [Option.map_eq_some_iff, Prod.mk.injEq] at h
      obtain ⟨⟨text', rest'⟩, hread, -, rfl⟩ := h
      exact Nat.lt_add_right 1 (ih hread)

/-- A name, an equals sign and a value in quotes. -/
def readLabel (s : List Char) : Option ((String × String) × List Char) :=
  match s.dropWhile isNameChar with
  | '=' :: '"' :: r =>
      (readText r).map fun (text, rest) => ((.ofList (s.takeWhile isNameChar), .ofList text), rest)
  | _ => none

theorem length_readLabel {s rest : List Char} {label : String × String} (h : readLabel s = some (label, rest)) :
    rest.length < s.length := by
  have hname := (s.dropWhile_sublist isNameChar).length_le
  rw [readLabel] at h
  split at h
  · rename_i r hr
    simp only [Option.map_eq_some_iff, Prod.mk.injEq] at h
    obtain ⟨⟨text, rest'⟩, hread, -, rfl⟩ := h
    have hshort := length_readText hread
    simp only [hr, List.length_cons] at hname ⊢
    omega
  · cases h

/-- Labels up to the closing brace, and what follows the brace. -/
def readLabels (s : List Char) : Option (List (String × String) × List Char) :=
  match h : readLabel s with
  | some (label, ',' :: r) =>
      have : r.length < s.length := Nat.lt_of_succ_lt (length_readLabel h)
      (readLabels r).map fun (labels, rest) => (label :: labels, rest)
  | some (label, '\x7d' :: r) => some ([label], r)
  | _ => none
termination_by s.length

/-- What a sample line tells. -/
structure Reading where
  name : String
  labels : List (String × String)
  value : String
deriving Repr, DecidableEq, Inhabited

def readSample? (line : List Char) : Option Reading :=
  match line.dropWhile isNameChar with
  | '\x7b' :: r =>
      match readLabels r with
      | some (labels, ' ' :: value) =>
          if value ≠ [] ∧ value.all (!·.isWhitespace) then
            some ⟨.ofList (line.takeWhile isNameChar), labels, .ofList value⟩
          else none
      | _ => none
  | _ => none

/-! ## Escaping -/

/-- What is written of one character of the value of a label. -/
def escapeChar (c : Char) : List Char :=
  if c = '\\' then ['\\', '\\'] else if c = '"' then ['\\', '"'] else if c = '\n' then ['\\', 'n'] else [c]

/-- Three passes in this order come to the same as one. -/
theorem escape_eq_flatMap (s : String) : escape s = s.toList.flatMap escapeChar := by
  simp only [escape, substitute, List.flatMap_assoc]
  congr 1
  funext c
  by_cases hbackslash : c = '\\'
  · simp [escapeChar, hbackslash]
  · by_cases hquote : c = '"'
    · simp [escapeChar, hquote]
    · simp [escapeChar, hbackslash, hquote]

theorem readText_escapeChar (c : Char) (s : List Char) :
    readText (escapeChar c ++ s) = (readText s).map fun (text, rest) => (c :: text, rest) := by
  rw [escapeChar]
  split
  · rename_i h
    rw [h]
    rfl
  · split
    · rename_i h
      rw [h]
      rfl
    · split
      · rename_i h
        rw [h]
        rfl
      · rename_i hbackslash hquote _
        exact readText.eq_4 _ _ hquote fun _ _ h => absurd h hbackslash

/-- The value of a label is read up to the quote that was written after it. -/
theorem readText_escape (s : String) (rest : List Char) :
    readText (escape s ++ '"' :: rest) = some (s.toList, rest) := by
  rw [escape_eq_flatMap]
  induction s.toList with
  | nil => rfl
  | cons c r ih => rw [List.flatMap_cons, List.append_assoc, readText_escapeChar, ih, Option.map_some]

theorem newline_not_mem_escape (s : String) : '\n' ∉ escape s := by
  simp only [escape_eq_flatMap, List.mem_flatMap, not_exists, not_and, escapeChar]
  intro c _
  split <;> (try split) <;> (try split) <;> simp_all [eq_comm]

/-! ## Writing and reading back -/

theorem takeWhile_name {name : String} (hname : name.toList.all isNameChar) {c : Char} (hc : isNameChar c = false)
    (rest : List Char) : (name.toList ++ c :: rest).takeWhile isNameChar = name.toList := by
  rw [List.takeWhile_append_of_pos (List.all_eq_true.1 hname), List.takeWhile_cons_of_neg (by simp [hc]),
    List.append_nil]

theorem dropWhile_name {name : String} (hname : name.toList.all isNameChar) {c : Char} (hc : isNameChar c = false)
    (rest : List Char) : (name.toList ++ c :: rest).dropWhile isNameChar = c :: rest := by
  rw [List.dropWhile_append_of_pos (List.all_eq_true.1 hname), List.dropWhile_cons_of_neg (by simp [hc])]

theorem readLabel_labelText {label : String × String} (hname : label.1.toList.all isNameChar) (rest : List Char) :
    readLabel (labelText label ++ rest) = some (label, rest) := by
  have hline : labelText label ++ rest = label.1.toList ++ '=' :: '"' :: (escape label.2 ++ '"' :: rest) := by
    simp [labelText]
  have hequals : isNameChar '=' = false := by decide
  rw [readLabel, hline, dropWhile_name hname hequals, takeWhile_name hname hequals]
  simp only [readText_escape, Option.map_some, String.ofList_toList]

theorem readLabels_comma {s r : List Char} {label : String × String} (h : readLabel s = some (label, ',' :: r)) :
    readLabels s = (readLabels r).map fun (labels, rest) => (label :: labels, rest) := by
  rw [readLabels]
  split <;> simp_all

theorem readLabels_brace {s r : List Char} {label : String × String} (h : readLabel s = some (label, '\x7d' :: r)) :
    readLabels s = some ([label], r) := by
  rw [readLabels]
  split <;> simp_all

theorem readLabels_labelsText {labels : List (String × String)} (hne : labels ≠ [])
    (hnames : ∀ label ∈ labels, label.1.toList.all isNameChar) (rest : List Char) :
    readLabels (labelsText labels ++ '\x7d' :: rest) = some (labels, rest) := by
  induction labels with
  | nil => exact absurd rfl hne
  | cons label others ih =>
      have hlabel := readLabel_labelText (hnames label List.mem_cons_self)
      cases others with
      | nil => exact readLabels_brace (hlabel _)
      | cons next others =>
          have hothers := ih (List.cons_ne_nil _ _) fun l hl => hnames l (List.mem_cons_of_mem _ hl)
          have hline : labelsText (label :: next :: others) ++ '\x7d' :: rest =
              labelText label ++ ',' :: (labelsText (next :: others) ++ '\x7d' :: rest) := by
            rw [labelsText, List.append_assoc, List.cons_append]
            exact List.cons_ne_nil _ _
          rw [hline, readLabels_comma (hlabel _), hothers, Option.map_some]

/-- A value that is written as one word. -/
def IsWord (value : String) : Prop :=
  value.toList ≠ [] ∧ ∀ c ∈ value.toList, c.isWhitespace = false

/-- A sample that can be told from its line: it has labels, their names are names, and its value is a word. -/
structure Sample.Legible (s : Sample) : Prop where
  labelled : s.labels ≠ []
  names : ∀ label ∈ s.labels, label.1.toList.all isNameChar
  value : IsWord s.value

theorem readSample?_sampleLine {name : String} (hname : name.toList.all isNameChar) {s : Sample} (hs : s.Legible) :
    readSample? (sampleLine name s) = some ⟨name, s.labels, s.value⟩ := by
  have hbrace : isNameChar '\x7b' = false := by decide
  have hvalue : s.value.toList ≠ [] ∧ s.value.toList.all (!·.isWhitespace) :=
    ⟨hs.value.1, by simpa using hs.value.2⟩
  rw [readSample?, sampleLine, dropWhile_name hname hbrace, takeWhile_name hname hbrace]
  simp only [readLabels_labelsText hs.labelled hs.names, if_pos hvalue, String.ofList_toList]

theorem newline_not_mem_name {name : String} (hname : name.toList.all isNameChar) : '\n' ∉ name.toList := by
  intro h
  have := List.all_eq_true.1 hname _ h
  exact absurd this (by decide)

theorem newline_not_mem_labelsText {labels : List (String × String)}
    (hnames : ∀ label ∈ labels, label.1.toList.all isNameChar) : '\n' ∉ labelsText labels := by
  have hlabel (label : String × String) (h : label ∈ labels) : '\n' ∉ labelText label := by
    simp [labelText, newline_not_mem_name (hnames label h), newline_not_mem_escape]
  fun_induction labelsText labels with
  | case1 => simp
  | case2 label => exact hlabel label List.mem_cons_self
  | case3 label others _ ih =>
      have hothers := ih (fun l hl => hnames l (List.mem_cons_of_mem _ hl)) fun l hl =>
        hlabel l (List.mem_cons_of_mem _ hl)
      simp [hlabel label List.mem_cons_self, hothers]

theorem newline_not_mem_sampleLine {name : String} (hname : name.toList.all isNameChar) {s : Sample} (hs : s.Legible) :
    '\n' ∉ sampleLine name s := by
  have hvalue : '\n' ∉ s.value.toList := fun h => absurd (hs.value.2 _ h) (by decide)
  simp [sampleLine, newline_not_mem_name hname, newline_not_mem_labelsText hs.names, hvalue]

/-! ## Numbers -/

theorem isWord_toDigits (n : Nat) : IsWord (.ofList (Nat.toDigits 10 n)) := by
  obtain ⟨ds, hds, hdigits⟩ := Text.exists_digits (by decide : 1 < 10) n
  have hdigit : ∀ d < 10, (Nat.digitChar d).isWhitespace = false := by decide
  rw [IsWord, String.toList_ofList, hds]
  refine ⟨by simpa using hdigits.nonempty, fun c hc => ?_⟩
  obtain ⟨d, hd, rfl⟩ := List.mem_map.1 hc
  exact hdigit d (hdigits.lt d hd)

theorem isWord_minus {value : String} (h : IsWord value) : IsWord ("-" ++ value) := by
  have hminus : '-'.isWhitespace = false := by decide
  simpa [IsWord, hminus] using h.2

theorem isWord_repr (i : Int) : IsWord i.repr := by
  cases i with
  | ofNat n => exact isWord_toDigits n
  | negSucc n => exact isWord_minus (isWord_toDigits _)

theorem isWord_pointed (places n : Nat) : IsWord (Decimal.pointed places n) := by
  have hzero : '0'.isWhitespace = false := by decide
  have hpoint : '.'.isWhitespace = false := by decide
  have hpadded (zeros : Nat) : ∀ c ∈ List.replicate zeros '0' ++ Nat.toDigits 10 n, c.isWhitespace = false := by
    intro c hc
    rcases List.mem_append.1 hc with hc | hc
    · rw [List.eq_of_mem_replicate hc, hzero]
    · exact (isWord_toDigits n).2 c (by rwa [String.toList_ofList])
  rw [IsWord, Decimal.pointed, String.toList_ofList]
  refine ⟨by simp, fun c hc => ?_⟩
  rcases List.mem_append.1 hc with hc | hc
  · exact hpadded _ c (List.mem_of_mem_take hc)
  · rcases List.mem_cons.1 hc with rfl | hc
    · exact hpoint
    · exact hpadded _ c (List.mem_of_mem_drop hc)

theorem isWord_fixed (places : Nat) (x : Float) : IsWord (Decimal.fixed places x) := by
  have hmagnitude : IsWord (Decimal.magnitude places x) := by
    rw [Decimal.magnitude]
    split
    · simp [IsWord]
    · exact isWord_pointed _ _
  rw [Decimal.fixed]
  split
  · simp [IsWord]
  · split
    · exact isWord_minus hmagnitude
    · exact hmagnitude

end AgentMesh.Metrics.Exposition
