import AgentMesh.Proofs.Net.Text
import Mathlib.Data.List.DropRight

/-!
# How addresses are spelled

The text of an address has digits, points and colons only. It ends in a colon if the zero groups at its end are left
out, and these are left out if they are the first of the longest runs of zero groups: every shorter beginning of the
address ends in fewer zeros.
-/

namespace AgentMesh.Net

open Text

/-! ## Characters -/

/-- Digits of either base, points and colons. -/
def Spelled (s : List Char) : Prop :=
  ∀ c ∈ s, hexDigit? c ≠ none ∨ c = '.' ∨ c = ':'

theorem Spelled.append {s t : List Char} (hs : Spelled s) (ht : Spelled t) : Spelled (s ++ t) := fun c hc =>
  (List.mem_append.1 hc).elim (hs c) (ht c)

theorem Spelled.cons {c : Char} {s : List Char} (hc : c = '.' ∨ c = ':') (hs : Spelled s) : Spelled (c :: s) := by
  intro d hd
  rcases List.mem_cons.1 hd with rfl | hd
  · exact .inr hc
  · exact hs d hd

theorem digit?_of_mem_toDigits {n : Nat} {c : Char} (h : c ∈ Nat.toDigits 10 n) : digit? c ≠ none := by
  obtain ⟨ds, hds, hdigits⟩ := exists_digits (show 1 < 10 by decide) n
  rw [hds, List.mem_map] at h
  obtain ⟨d, hd, rfl⟩ := h
  rw [digit?_digitChar d (hdigits.lt d hd)]
  exact Option.some_ne_none d

theorem spelled_toDigits (n : Nat) : Spelled (Nat.toDigits 10 n) := fun _ hc =>
  .inl fun hnone => digit?_of_mem_toDigits hc (digit?_of_hexDigit? hnone)

theorem Ipv4.spelled_text (ip : Ipv4) : Spelled ip.text.toList := by
  have hdot {s : List Char} (hs : Spelled s) : Spelled ('.' :: s) := hs.cons (.inl rfl)
  rw [toList_text]
  exact (spelled_toDigits _).append (hdot ((spelled_toDigits _).append (hdot ((spelled_toDigits _).append
    (hdot (spelled_toDigits _))))))

namespace Ipv6

theorem spelled_joinGroups (gs : List UInt16) : Spelled (joinGroups gs).toList := by
  cases gs with
  | nil => exact nofun
  | cons g gs =>
      have hgroup (g : UInt16) : Spelled (digitsOfGroup g) := fun c hc => .inl (hexDigit?_of_mem_digitsOfGroup hc)
      rw [toList_joinGroups_cons]
      refine (hgroup g).append fun c hc => ?_
      obtain ⟨g', -, hc⟩ := List.mem_flatMap.1 hc
      exact (hgroup g').cons (.inr rfl) c hc

/--
What follows the two colons is the address of the shorter family, or the groups behind the zeros; there may be none.
-/
theorem toList_text (ip : Ipv6) :
    (∃ v4, ip.mapped? = some v4 ∧ ip.text.toList = "::ffff:".toList ++ v4.text.toList) ∨
    ip.mapped? = none ∧
      let gs := ip.groups.toList
      let run := longestZeros gs
      ip.text.toList =
        if 1 < run.length then
          (joinGroups (gs.take run.start)).toList ++ ':' :: ':' ::
            (joinGroups (gs.drop (run.start + run.length))).toList
        else (joinGroups gs).toList := by
  cases hmapped : ip.mapped? with
  | some v4 => exact .inl ⟨v4, rfl, by simp [text, hmapped]⟩
  | none =>
      refine .inr ⟨rfl, ?_⟩
      simp only [text, hmapped]
      split <;> simp

theorem spelled_text (ip : Ipv6) : Spelled ip.text.toList := by
  rcases ip.toList_text with ⟨v4, -, htext⟩ | ⟨-, htext⟩
  · have hopening : Spelled "::ffff:".toList := by
      intro c hc
      have hchar : c = ':' ∨ c = 'f' ∨ c = ':' := by simpa using hc
      rcases hchar with rfl | rfl | rfl
      · exact .inr (.inr rfl)
      · exact .inl (by decide)
      · exact .inr (.inr rfl)
    rw [htext]
    exact hopening.append v4.spelled_text
  · rw [htext]
    split
    · exact (spelled_joinGroups _).append (.cons (.inr rfl) (.cons (.inr rfl) (spelled_joinGroups _)))
    · exact spelled_joinGroups _

end Ipv6

theorem Ip.spelled_text (ip : Ip) : Spelled ip.text.toList := by
  cases ip with
  | v4 ip => exact ip.spelled_text
  | v6 ip => exact ip.spelled_text

/-! ## Zeros at the end -/

namespace Ipv6

/-- How many zero groups stand at the end. -/
def closingZeros (gs : List UInt16) : Nat :=
  (gs.rtakeWhile (· == 0)).length

theorem closingZeros_concat_zero (gs : List UInt16) : closingZeros (gs ++ [0]) = closingZeros gs + 1 := by
  rw [closingZeros, List.rtakeWhile_concat_pos _ _ _ rfl, List.length_append, closingZeros, List.length_singleton]

theorem closingZeros_concat_of_ne {g : UInt16} (gs : List UInt16) (hg : g ≠ 0) : closingZeros (gs ++ [g]) = 0 := by
  rw [closingZeros, List.rtakeWhile_concat_neg _ _ _ (by simpa using hg), List.length_nil]

/-- At least two zero groups stand at the end, and no other run of zero groups is as long. -/
def TrailsOff (ip : Ipv6) : Prop :=
  let gs := ip.groups.toList
  1 < closingZeros gs ∧ ∀ k < gs.length, closingZeros (gs.take k) < closingZeros gs

instance (ip : Ipv6) : Decidable ip.TrailsOff :=
  inferInstanceAs (Decidable (_ ∧ _))

/-- What the scan of some groups knows: no beginning ends in more zeros than the best run has, and the first one that
ends in as many ends where that run does. -/
structure ZeroScan.First (s : ZeroScan) (gs : List UInt16) : Prop where
  current : s.current.length = closingZeros gs
  most {k : Nat} : k ≤ gs.length → closingZeros (gs.take k) ≤ s.best.length
  inside : s.best.start + s.best.length ≤ gs.length
  here : closingZeros (gs.take (s.best.start + s.best.length)) = s.best.length
  before {k : Nat} : k < s.best.start + s.best.length → closingZeros (gs.take k) < s.best.length

theorem ZeroScan.First.keep {s : ZeroScan} {gs : List UInt16} (h : s.First gs) {g : UInt16} {current : Run}
    (hcurrent : current.length = closingZeros (gs ++ [g])) (hmost : current.length ≤ s.best.length) :
    First ⟨s.best, current, s.seen + 1⟩ (gs ++ [g]) where
  current := hcurrent
  most {k} hk := by
    rcases Nat.lt_or_ge gs.length k with hlt | hle
    · have hlength : (gs ++ [g]).length ≤ k := by
        rw [List.length_append, List.length_singleton]
        exact hlt
      rw [List.take_of_length_le hlength, ← hcurrent]
      exact hmost
    · rw [List.take_append_of_le_length hle]
      exact h.most hle
  inside := by
    have := h.inside
    simp only [List.length_append]
    omega
  here := by rw [List.take_append_of_le_length h.inside, h.here]
  before {k} hk := by
    rw [List.take_append_of_le_length (Nat.le_of_lt (Nat.lt_of_lt_of_le hk h.inside))]
    exact h.before hk

theorem ZeroScan.First.step {s : ZeroScan} {gs : List UInt16} (hright : s.Right gs) (h : s.First gs) (g : UInt16) :
    (s.step g).First (gs ++ [g]) := by
  unfold ZeroScan.step
  split
  · rename_i hg
    subst hg
    have hcurrent : s.current.length + 1 = closingZeros (gs ++ [0]) := by rw [closingZeros_concat_zero, h.current]
    dsimp only
    split
    · -- The run that is going on has become longer than every run before it.
      rename_i hlonger
      have hend : (if s.current.length = 0 then s.seen else s.current.start) + (s.current.length + 1) =
          (gs ++ [0]).length := by
        split
        · rename_i hzero
          rw [hright.seen, hzero, List.length_append, List.length_singleton]
        · rename_i hne
          obtain ⟨before, hgs, hstart⟩ := hright.current hne
          have hlength := congrArg List.length hgs
          rw [List.length_append, List.length_replicate] at hlength
          rw [List.length_append, List.length_singleton]
          omega
      have hfewer {k : Nat} (hk : k < (gs ++ [(0 : UInt16)]).length) :
          closingZeros ((gs ++ [0]).take k) < s.current.length + 1 := by
        rw [List.length_append, List.length_singleton] at hk
        rw [List.take_append_of_le_length (by omega)]
        have := h.most (k := k) (by omega)
        omega
      have hhere : closingZeros ((gs ++ [0]).take (gs ++ [0]).length) = s.current.length + 1 := by
        rw [List.take_length, hcurrent]
      refine ⟨hcurrent, fun {k} hk => ?_, hend.le, ?_, fun {k} hk => ?_⟩
      · rcases Nat.eq_or_lt_of_le hk with rfl | hlt
        · exact hhere.le
        · exact (hfewer hlt).le
      · rw [hend]
        exact hhere
      · rw [hend] at hk
        exact hfewer hk
    · exact h.keep hcurrent (Nat.le_of_not_lt ‹_›)
  · rename_i hg
    exact h.keep (closingZeros_concat_of_ne gs hg).symm (Nat.zero_le _)

theorem first_foldl (gs : List UInt16) : (gs.foldl ZeroScan.step {}).First gs := by
  induction gs using List.reverseRecOn with
  | nil => exact ⟨rfl, fun _ => by simp [closingZeros], Nat.le_refl _, rfl, nofun⟩
  | append_singleton gs g ih =>
      rw [List.foldl_append]
      exact ih.step (right_foldl gs) g

/-- The best run reaches the end exactly if no beginning ends in as many zeros as the whole. -/
theorem ZeroScan.First.reaches_end_iff {s : ZeroScan} {gs : List UInt16} (h : s.First gs) :
    (1 < closingZeros gs ∧ ∀ k < gs.length, closingZeros (gs.take k) < closingZeros gs) ↔
      1 < s.best.length ∧ gs.length ≤ s.best.start + s.best.length := by
  have hall : closingZeros gs ≤ s.best.length := by simpa using h.most (Nat.le_refl _)
  constructor
  · rintro ⟨htwo, hfewer⟩
    refine ⟨Nat.lt_of_lt_of_le htwo hall, Nat.le_of_not_lt fun hlt => ?_⟩
    have hless := hfewer _ hlt
    rw [h.here] at hless
    omega
  · rintro ⟨htwo, hend⟩
    have hclosing := h.here
    rw [List.take_of_length_le hend] at hclosing
    rw [hclosing]
    exact ⟨htwo, fun k hk => h.before (Nat.lt_of_lt_of_le hk hend)⟩

/-- The run that is left out reaches the end exactly if the address trails off. -/
theorem trailsOff_iff (ip : Ipv6) :
    ip.TrailsOff ↔ 1 < (longestZeros ip.groups.toList).length ∧ ip.groups.toList.length ≤
      (longestZeros ip.groups.toList).start + (longestZeros ip.groups.toList).length :=
  (first_foldl _).reaches_end_iff

/-! ## The last character -/

theorem exists_joinGroups_eq_append {gs : List UInt16} (h : gs ≠ []) :
    ∃ s g, (joinGroups gs).toList = s ++ digitsOfGroup g := by
  obtain ⟨g, gs, rfl⟩ := List.exists_cons_of_ne_nil h
  rw [toList_joinGroups_cons]
  rcases List.eq_nil_or_concat gs with rfl | ⟨gs, g', rfl⟩
  · exact ⟨[], g, by simp⟩
  · exact ⟨digitsOfGroup g ++ (gs.flatMap fun g => ':' :: digitsOfGroup g) ++ [':'], g', by simp⟩

theorem getLast?_digitsOfGroup_ne (s : List Char) (g : UInt16) : (s ++ digitsOfGroup g).getLast? ≠ some ':' := by
  obtain ⟨ds, hds, hdigits⟩ := exists_digits (show 1 < 16 by decide) g.toNat
  have hne : digitsOfGroup g ≠ [] := by
    rw [digitsOfGroup, hds]
    simpa using hdigits.nonempty
  rw [List.getLast?_append_of_ne_nil _ hne]
  intro hlast
  exact hexDigit?_of_mem_digitsOfGroup (List.mem_of_getLast? hlast) (by decide)

theorem getLast?_joinGroups_ne {gs : List UInt16} (h : gs ≠ []) (s : List Char) :
    (s ++ (joinGroups gs).toList).getLast? ≠ some ':' := by
  obtain ⟨t, g, ht⟩ := exists_joinGroups_eq_append h
  rw [ht, ← List.append_assoc]
  exact getLast?_digitsOfGroup_ne _ g

end Ipv6

theorem getLast?_toDigits_ne (s : List Char) (n : Nat) : (s ++ Nat.toDigits 10 n).getLast? ≠ some ':' := by
  have hne : Nat.toDigits 10 n ≠ [] := by
    obtain ⟨d, r, -, hcons⟩ := exists_toDigits_eq_cons n
    simp [hcons]
  rw [List.getLast?_append_of_ne_nil _ hne]
  intro hlast
  exact digit?_of_mem_toDigits (List.mem_of_getLast? hlast) (by decide)

theorem Ipv4.getLast?_text_ne (ip : Ipv4) (s : List Char) : (s ++ ip.text.toList).getLast? ≠ some ':' := by
  have hlast := getLast?_toDigits_ne (s ++ (Nat.toDigits 10 ip.a.toNat ++ '.' :: (Nat.toDigits 10 ip.b.toNat ++ '.' ::
    (Nat.toDigits 10 ip.c.toNat ++ ['.'])))) ip.d.toNat
  simpa [toList_text] using hlast

namespace Ipv6

/-- A mapped address has its longest run of zeros at the beginning. -/
theorem not_trailsOff_of_mapped? {ip : Ipv6} {v4 : Ipv4} (h : ip.mapped? = some v4) : ¬ ip.TrailsOff := by
  rintro ⟨-, hfewer⟩
  rw [mapped?_eq_some h] at hfewer
  have hfive : closingZeros (([0, 0, 0, 0, 0, 0xFFFF] ++ v4.groups).take 5) = 5 := rfl
  have hafter : closingZeros ([0, 0, 0, 0, 0, 0xFFFF] ++ v4.groups) ≤ 2 := by
    have hmapped : closingZeros ([0, 0, 0, 0, 0] ++ [(0xFFFF : UInt16)]) = 0 := closingZeros_concat_of_ne _ (by decide)
    have hnext (gs : List UInt16) (g : UInt16) : closingZeros (gs ++ [g]) ≤ closingZeros gs + 1 := by
      by_cases hg : g = 0
      · rw [hg, closingZeros_concat_zero]
      · rw [closingZeros_concat_of_ne gs hg]
        exact Nat.zero_le _
    simp only [Ipv4.groups]
    rw [List.append_cons]
    refine (hnext _ _).trans (Nat.succ_le_succ ?_)
    refine (hnext _ _).trans (Nat.succ_le_succ ?_)
    exact hmapped.le
  have := hfewer 5 (by simp [Ipv4.groups])
  omega

theorem getLast?_text_eq_colon_iff (ip : Ipv6) : ip.text.toList.getLast? = some ':' ↔ ip.TrailsOff := by
  rcases ip.toList_text with ⟨v4, hmapped, htext⟩ | ⟨-, htext⟩
  · rw [htext]
    exact iff_of_false (v4.getLast?_text_ne _) (not_trailsOff_of_mapped? hmapped)
  · rw [ip.trailsOff_iff, htext]
    generalize longestZeros ip.groups.toList = run
    have hgroups : ip.groups.toList ≠ [] := List.ne_nil_of_length_pos (by simp)
    split
    · rename_i htwo
      by_cases hend : ip.groups.toList.length ≤ run.start + run.length
      · refine iff_of_true ?_ ⟨htwo, hend⟩
        rw [List.drop_eq_nil_of_le hend]
        simp [joinGroups]
      · refine iff_of_false ?_ fun h => hend h.2
        have hbehind : ip.groups.toList.drop (run.start + run.length) ≠ [] := by simpa using hend
        have hlast := getLast?_joinGroups_ne hbehind
          ((joinGroups (ip.groups.toList.take run.start)).toList ++ [':', ':'])
        simpa using hlast
    · rename_i hshort
      exact iff_of_false (by simpa using getLast?_joinGroups_ne hgroups []) fun h => hshort h.1

theorem text_ne_nil (ip : Ipv6) : ip.text.toList ≠ [] := by
  rcases ip.toList_text with ⟨v4, -, htext⟩ | ⟨-, htext⟩
  · rw [htext]
    simp
  · rw [htext]
    split
    · simp
    · have hgroups : ip.groups.toList ≠ [] := List.ne_nil_of_length_pos (by simp)
      obtain ⟨g, gs, hcons⟩ := List.exists_cons_of_ne_nil hgroups
      obtain ⟨ds, hds, hdigits⟩ := exists_digits (show 1 < 16 by decide) g.toNat
      rw [hcons, toList_joinGroups_cons, digitsOfGroup, hds]
      simpa using fun hnil => absurd hnil hdigits.nonempty

end Ipv6

namespace Ip

/-- The zeros at the end of the address are left out of its text. -/
def TrailsOff : Ip → Prop
  | v4 _ => False
  | v6 ip => ip.TrailsOff

instance : (ip : Ip) → Decidable ip.TrailsOff
  | v4 _ => inferInstanceAs (Decidable False)
  | v6 ip => inferInstanceAs (Decidable ip.TrailsOff)

theorem getLast?_text_eq_colon_iff (ip : Ip) : ip.text.toList.getLast? = some ':' ↔ ip.TrailsOff := by
  cases ip with
  | v4 ip => exact iff_of_false (by simpa [text] using ip.getLast?_text_ne []) id
  | v6 ip => exact ip.getLast?_text_eq_colon_iff

theorem text_ne_nil (ip : Ip) : ip.text.toList ≠ [] := by
  cases ip with
  | v4 ip => simp [text, Ipv4.toList_text]
  | v6 ip => exact ip.text_ne_nil

end Ip

end AgentMesh.Net
