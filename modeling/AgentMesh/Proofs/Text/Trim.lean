import AgentMesh.Text.Blank
import Mathlib.Data.List.DropRight

/-!
# Trimming

A text consists of blanks, what trimming leaves of it, and blanks again. What is left has no blank at either end, and
nothing else in the text can be set apart so.
-/

namespace AgentMesh.Text

/-- Nothing but blanks. -/
def Blanks (s : List Char) : Prop :=
  ∀ c ∈ s, isBlank c = true

-- The characters of the text are looked at, and not all characters.
instance (s : List Char) : Decidable (Blanks s) :=
  List.decidableBAll _ s

/-- No blank at either end. -/
structure Trimmed (s : List Char) : Prop where
  first : ∀ c ∈ s.head?, isBlank c = false
  last : ∀ c ∈ s.getLast?, isBlank c = false

theorem trimmed_iff {s : List Char} :
    Trimmed s ↔ s.head?.all (!isBlank ·) = true ∧ s.getLast?.all (!isBlank ·) = true := by
  simp only [Option.all_eq_true, Bool.not_eq_true']
  exact ⟨fun h => ⟨h.first, h.last⟩, fun h => ⟨h.1, h.2⟩⟩

instance (s : List Char) : Decidable (Trimmed s) :=
  decidable_of_iff' _ trimmed_iff

/-- The text is `s` with blanks added around it. -/
def Padded (s text : List Char) : Prop :=
  ∃ before after, Blanks before ∧ Blanks after ∧ text = before ++ s ++ after

theorem Padded.refl (s : List Char) : Padded s s :=
  ⟨[], [], by simp [Blanks], by simp [Blanks], by simp⟩

theorem Padded.subset {s text : List Char} (h : Padded s text) : s ⊆ text := by
  obtain ⟨before, after, -, -, rfl⟩ := h
  exact fun c hc => List.mem_append_left _ (List.mem_append_right _ hc)

theorem padded_nil_iff {text : List Char} : Padded [] text ↔ Blanks text := by
  constructor
  · rintro ⟨before, after, hbefore, hafter, rfl⟩ c hc
    rw [List.append_nil, List.mem_append] at hc
    exact hc.elim (hbefore c) (hafter c)
  · intro h
    exact ⟨text, [], h, by simp [Blanks], by simp⟩

/-! ## One end at a time -/

theorem dropWhile_eq_self {s : List Char} (h : ∀ c ∈ s.head?, isBlank c = false) : s.dropWhile isBlank = s := by
  cases s with
  | nil => rfl
  | cons c r => rw [List.dropWhile_cons_of_neg (by simp [h c rfl])]

theorem first_dropWhile (s : List Char) : ∀ c ∈ (s.dropWhile isBlank).head?, isBlank c = false := by
  intro c hc
  have hfirst := List.head?_dropWhile_not isBlank s
  rw [Option.mem_def.1 hc] at hfirst
  exact hfirst

theorem Blanks.reverse {s : List Char} (h : Blanks s) : Blanks s.reverse :=
  fun c hc => h c (List.mem_reverse.1 hc)

/-! ## Both ends -/

theorem trimmed_trim (s : List Char) : Trimmed (trim s) where
  first c hc := by
    -- What is taken away behind does not change how the text begins.
    obtain ⟨after, hafter⟩ := List.rdropWhile_prefix (p := isBlank) (l := s.dropWhile isBlank)
    refine first_dropWhile s c ?_
    rw [← hafter]
    exact List.mem_head?_append_of_mem_head? hc
  last c hc := by
    rw [trim, List.getLast?_reverse] at hc
    exact first_dropWhile _ c hc

theorem padded_trim (s : List Char) : Padded (trim s) s := by
  refine ⟨s.takeWhile isBlank, (s.dropWhile isBlank).rtakeWhile isBlank, fun c => List.mem_takeWhile_imp,
    fun c => List.mem_rtakeWhile_imp, ?_⟩
  have hbehind : trim s ++ (s.dropWhile isBlank).rtakeWhile isBlank = s.dropWhile isBlank :=
    List.rdropWhile_append_rtakeWhile
  rw [List.append_assoc, hbehind, List.takeWhile_append_dropWhile]

theorem Padded.trim_eq {s text : List Char} (h : Padded s text) (hs : Trimmed s) : trim text = s := by
  obtain ⟨before, after, hbefore, hafter, rfl⟩ := h
  rw [trim, List.append_assoc, List.dropWhile_append_of_pos hbefore]
  cases s with
  | nil =>
      have hnone : after.dropWhile isBlank = [] := List.dropWhile_eq_nil_iff.2 hafter
      rw [List.nil_append, hnone]
      rfl
  | cons c r =>
      have hfront : (c :: r ++ after).dropWhile isBlank = c :: r ++ after :=
        dropWhile_eq_self fun d hd => hs.first d hd
      have hback : (c :: r).reverse.dropWhile isBlank = (c :: r).reverse :=
        dropWhile_eq_self (by rw [List.head?_reverse]; exact hs.last)
      rw [hfront, List.reverse_append, List.dropWhile_append_of_pos hafter.reverse, hback, List.reverse_reverse]

theorem trim_eq_iff {s text : List Char} : trim text = s ↔ Trimmed s ∧ Padded s text := by
  constructor
  · rintro rfl
    exact ⟨trimmed_trim text, padded_trim text⟩
  · rintro ⟨hs, hpadded⟩
    exact hpadded.trim_eq hs

end AgentMesh.Text
