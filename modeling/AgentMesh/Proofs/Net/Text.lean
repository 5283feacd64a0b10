import AgentMesh.Net.SocketAddr
import AgentMesh.Proofs.Text.Digits
import Mathlib.Data.List.Induction

/-!
# Addresses and their text

An address is what is read from its text. Of the longer family this rests on the run of zero groups which is left out:
the groups around it are fewer than eight, and what is missing are zeros.
-/

namespace AgentMesh.Net

open Text

theorem digit?_of_hexDigit? {c : Char} (h : hexDigit? c = none) : digit? c = none := by
  unfold hexDigit? at h
  split at h
  · cases h
  · rename_i hc
    exact if_neg hc

/-! ## The shorter family -/

theorem readOctet_toDigits (b : UInt8) {rest : List Char} (hrest : Ends digit? rest) :
    readOctet (Nat.toDigits 10 b.toNat ++ rest) = some (b.toNat, rest) := by
  have hb := b.toNat_lt
  refine readNumber_toDigits (by decide) digit?_digitChar hb ?_ _ hrest
  rw [Nat.length_toDigits_le_iff (by decide) (by decide)]
  omega

namespace Ipv4

theorem toList_text (ip : Ipv4) :
    ip.text.toList = Nat.toDigits 10 ip.a.toNat ++ '.' :: (Nat.toDigits 10 ip.b.toNat ++ '.' ::
      (Nat.toDigits 10 ip.c.toNat ++ '.' :: Nat.toDigits 10 ip.d.toNat)) := by
  simp [text, String.toList_append]

theorem read_text (ip : Ipv4) {rest : List Char} (hrest : Ends digit? rest) :
    read (ip.text.toList ++ rest) = some (ip, rest) := by
  have hdot (s : List Char) : Ends digit? ('.' :: s) := ends_cons (by decide)
  simp [read, toList_text, readOctet_toDigits _ (hdot _), readOctet_toDigits _ hrest, readChar]

end Ipv4

/-! ### Texts which are no address of the shorter family -/

theorem takeDigits_append (digit : Char → Option Nat) (limit : Nat) (s : List Char) :
    ∃ taken, s = taken ++ (takeDigits digit limit s).2 ∧ ∀ c ∈ taken, digit c ≠ none := by
  fun_induction takeDigits digit limit s with
  | case1 s => exact ⟨[], rfl, by simp⟩
  | case2 limit => exact ⟨[], rfl, by simp⟩
  | case3 limit c r hc => exact ⟨[], rfl, by simp⟩
  | case4 limit c r d hc ds rest hds ih =>
      obtain ⟨taken, htaken, hdigits⟩ := ih
      rw [hds] at htaken
      refine ⟨c :: taken, congrArg (c :: ·) htaken, ?_⟩
      simpa [hc] using hdigits

theorem readNumber_append {digit : Char → Option Nat} {base limit bound : Nat} {padded : Bool} {s rest : List Char}
    {n : Nat} (h : readNumber digit base limit bound padded s = some (n, rest)) :
    ∃ taken, s = taken ++ rest ∧ ∀ c ∈ taken, digit c ≠ none := by
  obtain ⟨taken, htaken, hdigits⟩ := takeDigits_append digit limit s
  simp only [readNumber, Option.ite_none_left_eq_some, Option.some.injEq, Prod.mk.injEq] at h
  exact ⟨taken, h.2.2 ▸ htaken, hdigits⟩

theorem Ipv4.exists_dot {s : List Char} {p : Ipv4 × List Char} (h : read s = some p) :
    ∃ taken r, s = taken ++ '.' :: r ∧ ∀ c ∈ taken, digit? c ≠ none := by
  simp only [read, Option.bind_eq_bind, Option.bind_eq_some_iff] at h
  obtain ⟨⟨a, r⟩, ha, r', hr', -⟩ := h
  obtain ⟨taken, htaken, hdigits⟩ := readNumber_append ha
  cases r with
  | nil => cases hr'
  | cons c r =>
      simp only [readChar] at hr'
      split at hr'
      · rename_i hc
        exact ⟨taken, r, hc ▸ htaken, hdigits⟩
      · cases hr'

/-- No address of the shorter family starts with hexadecimal digits after which no dot follows. -/
theorem Ipv4.read_eq_none {u rest : List Char} (hu : ∀ c ∈ u, hexDigit? c ≠ none) (hrest : Ends hexDigit? rest)
    (hdot : rest.head? ≠ some '.') : read (u ++ rest) = none := by
  cases h : read (u ++ rest) with
  | none => rfl
  | some p =>
      obtain ⟨taken, r, hsplit, hdigits⟩ := exists_dot h
      rcases List.append_eq_append_iff.1 hsplit with ⟨v, rfl, hv⟩ | ⟨v, rfl, hv⟩
      · cases v with
        | nil => simp [hv] at hdot
        | cons c v =>
            have hc : hexDigit? c = none := hrest c (by simp [hv])
            exact absurd (digit?_of_hexDigit? hc) (hdigits c (by simp))
      · cases v with
        | nil => exact absurd (congrArg List.head? hv).symm hdot
        | cons c v =>
            obtain ⟨rfl, -⟩ := List.cons.inj hv
            exact absurd (by decide) (hu '.' (by simp))

/-! ## The longer family -/

namespace Ipv6

/-! ### Runs of zero groups -/

/-- The run lies in the groups. -/
def Run.In (r : Run) (gs : List UInt16) : Prop :=
  ∃ before after, gs = before ++ List.replicate r.length 0 ++ after ∧ before.length = r.start

/-- The run ends the groups, if it is not empty. -/
def Run.Closes (r : Run) (gs : List UInt16) : Prop :=
  r.length ≠ 0 → ∃ before, gs = before ++ List.replicate r.length 0 ∧ before.length = r.start

theorem Run.Closes.in {r : Run} {gs : List UInt16} (h : r.Closes gs) (hne : r.length ≠ 0) : r.In gs := by
  obtain ⟨before, hgs, hstart⟩ := h hne
  exact ⟨before, [], by rw [hgs, List.append_nil], hstart⟩

structure ZeroScan.Right (s : ZeroScan) (gs : List UInt16) : Prop where
  best : s.best.In gs
  current : s.current.Closes gs
  seen : s.seen = gs.length

theorem Run.In.snoc {r : Run} {gs : List UInt16} (h : r.In gs) (g : UInt16) : r.In (gs ++ [g]) := by
  obtain ⟨before, after, rfl, hstart⟩ := h
  exact ⟨before, after ++ [g], by simp, hstart⟩

theorem ZeroScan.Right.step {s : ZeroScan} {gs : List UInt16} (h : s.Right gs) (g : UInt16) :
    (s.step g).Right (gs ++ [g]) := by
  have hseen : s.seen + 1 = (gs ++ [g]).length := by rw [h.seen, List.length_append, List.length_singleton]
  unfold ZeroScan.step
  split
  · rename_i hg
    subst hg
    have hcurrent : Run.Closes ⟨if s.current.length = 0 then s.seen else s.current.start, s.current.length + 1⟩
        (gs ++ [0]) := by
      intro _
      by_cases hzero : s.current.length = 0
      · exact ⟨gs, by simp [hzero], by simp [hzero, h.seen]⟩
      · obtain ⟨before, hgs, hstart⟩ := h.current hzero
        exact ⟨before, by rw [hgs, List.append_assoc, ← List.replicate_succ'], by simp [hzero, hstart]⟩
    refine ⟨?_, hcurrent, hseen⟩
    dsimp only
    split
    · exact hcurrent.in (Nat.succ_ne_zero _)
    · exact h.best.snoc 0
  · exact ⟨h.best.snoc g, fun hne => absurd rfl hne, hseen⟩

theorem right_foldl (gs : List UInt16) : (gs.foldl ZeroScan.step {}).Right gs := by
  induction gs using List.reverseRecOn with
  | nil => exact ⟨⟨[], [], rfl, rfl⟩, fun hne => absurd rfl hne, rfl⟩
  | append_singleton gs g ih =>
      rw [List.foldl_append]
      exact ih.step g

/-- Around the longest run stand the groups before and after it. -/
theorem longestZeros_spec (gs : List UInt16) :
    gs = gs.take (longestZeros gs).start ++ List.replicate (longestZeros gs).length 0 ++
      gs.drop ((longestZeros gs).start + (longestZeros gs).length) := by
  obtain ⟨before, after, hgs, hstart⟩ := (right_foldl gs).best
  rw [longestZeros]
  generalize (gs.foldl ZeroScan.step {}).best = run at hgs hstart
  rw [← hstart]
  subst hgs
  simp [List.drop_append]

/-! ### Groups -/

/-- A group and its digits. -/
def digitsOfGroup (g : UInt16) : List Char :=
  Nat.toDigits 16 g.toNat

theorem hexDigit?_of_mem_digitsOfGroup {g : UInt16} {c : Char} (h : c ∈ digitsOfGroup g) : hexDigit? c ≠ none := by
  obtain ⟨ds, hds, hdigits⟩ := exists_digits (show 1 < 16 by decide) g.toNat
  rw [digitsOfGroup, hds, List.mem_map] at h
  obtain ⟨d, hd, rfl⟩ := h
  rw [hexDigit?_digitChar d (hdigits.lt d hd)]
  exact Option.some_ne_none d

theorem toList_joinGroups_cons (g : UInt16) (gs : List UInt16) :
    (joinGroups (g :: gs)).toList = digitsOfGroup g ++ gs.flatMap fun g => ':' :: digitsOfGroup g := by
  induction gs generalizing g with
  | nil => simp [joinGroups, digitsOfGroup]
  | cons g' gs ih =>
      have hcons : joinGroups (g :: g' :: gs) = String.ofList (digitsOfGroup g) ++ ":" ++ joinGroups (g' :: gs) :=
        String.intercalate_cons_cons
      simp [hcons, ih]

/-- No group follows, neither at once nor behind a colon, and no dot. -/
structure Stops (s : List Char) : Prop where
  ends : Ends hexDigit? s
  dot : s.head? ≠ some '.'
  colon : ∀ r, s = ':' :: r → Ends hexDigit? r ∧ r.head? ≠ some '.'

theorem readNumber_eq_none {digit : Char → Option Nat} {base limit bound : Nat} {padded : Bool} {s : List Char}
    (h : Ends digit s) : readNumber digit base limit bound padded s = none := by
  have htake : takeDigits digit limit s = ([], s) := by
    cases limit with
    | zero => rfl
    | succ limit =>
        cases s with
        | nil => rfl
        | cons c r => simp [takeDigits, h c rfl]
  simp [readNumber, htake]

theorem Stops.readGroups {s : List Char} (h : Stops s) (first : Bool) (room : Nat) :
    readGroups first room s = ([], false, s) := by
  have hnone {r : List Char} (hends : Ends hexDigit? r) (hdot : r.head? ≠ some '.') :
      Ipv4.read r = none ∧ readNumber hexDigit? 16 4 65536 true r = none :=
    ⟨Ipv4.read_eq_none (u := []) (by simp) hends hdot, readNumber_eq_none hends⟩
  cases room with
  | zero => rfl
  | succ room =>
      cases first with
      | true => simp [Ipv6.readGroups, hnone h.ends h.dot]
      | false =>
          cases s with
          | nil => simp [Ipv6.readGroups, readChar]
          | cons c r =>
              by_cases hc : c = ':'
              · subst hc
                obtain ⟨hends, hdot⟩ := h.colon r rfl
                simp [Ipv6.readGroups, readChar, hnone hends hdot]
              · simp [Ipv6.readGroups, readChar, hc]

theorem readNumber_digitsOfGroup (g : UInt16) {rest : List Char} (hrest : Ends hexDigit? rest) :
    readNumber hexDigit? 16 4 65536 true (digitsOfGroup g ++ rest) = some (g.toNat, rest) := by
  have hg := g.toNat_lt
  refine readNumber_toDigits (by decide) hexDigit?_digitChar hg ?_ _ hrest
  rw [Nat.length_toDigits_le_iff (by decide) (by decide)]
  omega

/-- A group which no dot follows is taken for itself. -/
theorem readGroups_group (first : Bool) {room : Nat} (g : UInt16) {rest : List Char} (hrest : Ends hexDigit? rest)
    (hdot : rest.head? ≠ some '.') {gs : List UInt16} {dotted : Bool} {rest' : List Char}
    (hgs : readGroups false room rest = (gs, dotted, rest')) :
    readGroups first (room + 1) ((if first then [] else [':']) ++ (digitsOfGroup g ++ rest)) =
      (g :: gs, dotted, rest') := by
  have hnot : Ipv4.read (digitsOfGroup g ++ rest) = none :=
    Ipv4.read_eq_none (fun c => hexDigit?_of_mem_digitsOfGroup) hrest hdot
  cases first <;> simp [readGroups, readChar, hnot, readNumber_digitsOfGroup g hrest, hgs]

theorem ends_groups (gs : List UInt16) {rest : List Char} (hrest : Stops rest) :
    Ends hexDigit? ((gs.flatMap fun g => ':' :: digitsOfGroup g) ++ rest) ∧
    ((gs.flatMap fun g => ':' :: digitsOfGroup g) ++ rest).head? ≠ some '.' := by
  cases gs with
  | nil => exact ⟨hrest.ends, hrest.dot⟩
  | cons g gs => exact ⟨ends_cons (by decide), by simp⟩

theorem readGroups_groups {gs : List UInt16} {room : Nat} (hroom : gs.length ≤ room) {rest : List Char}
    (hrest : Stops rest) :
    readGroups false room ((gs.flatMap fun g => ':' :: digitsOfGroup g) ++ rest) = (gs, false, rest) := by
  induction gs generalizing room with
  | nil => exact hrest.readGroups false room
  | cons g gs ih =>
      obtain ⟨room, rfl⟩ : ∃ r, room = r + 1 := ⟨room - 1, by simp at hroom; omega⟩
      obtain ⟨hends, hdot⟩ := ends_groups gs hrest
      have hgs := readGroups_group false g hends hdot (ih (Nat.le_of_succ_le_succ hroom))
      simpa using hgs

theorem readGroups_joinGroups {gs : List UInt16} {room : Nat} (hroom : gs.length ≤ room) {rest : List Char}
    (hrest : Stops rest) : readGroups true room ((joinGroups gs).toList ++ rest) = (gs, false, rest) := by
  cases gs with
  | nil => exact hrest.readGroups true room
  | cons g gs =>
      obtain ⟨room, rfl⟩ : ∃ r, room = r + 1 := ⟨room - 1, by simp at hroom; omega⟩
      obtain ⟨hends, hdot⟩ := ends_groups gs hrest
      have hgs := readGroups_group true g hends hdot
        (readGroups_groups (Nat.le_of_succ_le_succ hroom) hrest)
      rw [toList_joinGroups_cons, List.append_assoc]
      simpa using hgs

/-! ### Whole addresses -/

theorem ofList?_toList (ip : Ipv6) : ofList? ip.groups.toList = some ip := by
  rw [ofList?, dif_pos (by simp)]
  rfl

theorem stops_colons (s : List Char) : Stops (':' :: ':' :: s) where
  ends := ends_cons (by decide)
  dot := by simp
  colon := by
    rintro r ⟨⟩
    exact ⟨ends_cons (by decide), by simp⟩

/-- Fewer than eight groups before the colons, then groups with or without an address of the shorter family. -/
theorem read_compressed (head : List UInt16) {tail : List UInt16} (hhead : head.length < 8) {s rest : List Char}
    {dotted : Bool} (htail : readGroups true (7 - head.length) s = (tail, dotted, rest)) :
    read ((joinGroups head).toList ++ ':' :: ':' :: s) =
      (ofList? (head ++ List.replicate (8 - head.length - tail.length) 0 ++ tail)).map fun ip => (ip, rest) := by
  have hgroups := readGroups_joinGroups (Nat.le_of_lt hhead) (stops_colons s)
  simp only [read, hgroups, if_neg (Nat.ne_of_lt hhead), readChar, Bool.false_eq_true, ↓reduceIte, htail,
    List.append_assoc, Option.pure_def, Option.bind_eq_bind, Option.bind_some]
  exact Option.map_eq_bind.symm

theorem groups_ofGroups (hi lo : UInt16) : (Ipv4.ofGroups hi lo).groups = [hi, lo] := by
  have hword (w : UInt16) : UInt16.ofNat ((UInt8.ofNat (w.toNat / 256)).toNat * 256 +
      (UInt8.ofNat (w.toNat % 256)).toNat) = w := by
    have hw := w.toNat_lt
    have hsize : UInt8.size = 256 := rfl
    rw [UInt8.toNat_ofNat_of_lt' (by omega), UInt8.toNat_ofNat_of_lt' (by omega), Nat.div_add_mod', UInt16.ofNat_toNat]
  simp only [Ipv4.groups, Ipv4.ofGroups, hword]

theorem mapped?_eq_some {ip : Ipv6} {v4 : Ipv4} (h : ip.mapped? = some v4) :
    ip.groups.toList = [0, 0, 0, 0, 0, 0xFFFF] ++ v4.groups := by
  unfold mapped? at h
  split at h
  · rename_i hi lo hgroups
    cases h
    rw [hgroups, groups_ofGroups]
    rfl
  · cases h

theorem read_mapped (v4 : Ipv4) {rest : List Char} (hrest : Ends digit? rest) :
    readGroups true 7 (digitsOfGroup 0xFFFF ++ ':' :: (v4.text.toList ++ rest)) =
      (0xFFFF :: v4.groups, true, rest) := by
  have hdotted : readGroups false 6 (':' :: (v4.text.toList ++ rest)) = (v4.groups, true, rest) := by
    simp [readGroups, readChar, Ipv4.read_text v4 hrest]
  exact readGroups_group true 0xFFFF (ends_cons (by decide)) (by simp) hdotted

theorem read_text (ip : Ipv6) {rest : List Char} (hrest : Stops rest) :
    read (ip.text.toList ++ rest) = some (ip, rest) := by
  have hip := ofList?_toList ip
  have hends : Ends digit? rest := fun c hc => digit?_of_hexDigit? (hrest.ends c hc)
  unfold text
  split
  · rename_i v4 hmapped
    have hread := read_compressed [] (by decide) (read_mapped v4 hends)
    rw [mapped?_eq_some hmapped] at hip
    have htext : ("::ffff:" ++ v4.text).toList ++ rest =
        (joinGroups []).toList ++ ':' :: ':' :: (digitsOfGroup 0xFFFF ++ ':' :: (v4.text.toList ++ rest)) := by
      have hgroup : digitsOfGroup 0xFFFF = ['f', 'f', 'f', 'f'] := by decide
      simp [joinGroups, hgroup]
    rw [htext, hread]
    exact congrArg (Option.map fun ip => (ip, rest)) hip
  · dsimp only
    have hspec := longestZeros_spec ip.groups.toList
    generalize longestZeros ip.groups.toList = run at hspec ⊢
    have hlength : ip.groups.toList.length = 8 := by simp
    generalize ip.groups.toList = gs at hip hspec hlength
    split
    · have hparts := congrArg List.length hspec
      rw [List.length_append, List.length_append, List.length_replicate, hlength] at hparts
      generalize gs.take run.start = head at hspec hparts ⊢
      generalize gs.drop (run.start + run.length) = tail at hspec hparts ⊢
      have htail : tail.length ≤ 7 - head.length := by omega
      have hread := read_compressed head (by omega) (readGroups_joinGroups htail hrest)
      have hzeros : 8 - head.length - tail.length = run.length := by omega
      rw [hzeros, ← hspec, hip] at hread
      simpa using hread
    · have hread := readGroups_joinGroups (Nat.le_of_eq hlength) hrest
      simp [read, hread, hlength, hip]

end Ipv6

/-! ## Socket addresses -/

namespace SocketAddr

/-- A number of any length that may start with zeros. -/
theorem readNumber_whole {n limit : Nat} (bound : Nat) (hn : n < bound) (hlimit : (Nat.toDigits 10 n).length ≤ limit)
    {rest : List Char} (hrest : Ends digit? rest) :
    readNumber digit? 10 limit bound true (Nat.toDigits 10 n ++ rest) = some (n, rest) :=
  readNumber_toDigits (by decide) digit?_digitChar hn hlimit true hrest

theorem readPort_text (port : UInt16) : readPort (':' :: Nat.toDigits 10 port.toNat) = some (port, []) := by
  have hlimit : (Nat.toDigits 10 port.toNat).length ≤ (':' :: Nat.toDigits 10 port.toNat).length := by simp
  have hend : Ends digit? [] := nofun
  have hread := readNumber_whole 65536 port.toNat_lt hlimit hend
  rw [List.append_nil] at hread
  simp [readPort, readChar, hread, -List.length_cons]

/-- The scope as it is written after an address. -/
def scopeText (scope : UInt32) : List Char :=
  if scope = 0 then [] else '%' :: Nat.toDigits 10 scope.toNat

theorem readScope_text (scope : UInt32) (s : List Char) :
    readScope (scopeText scope ++ ']' :: s) = (scope, ']' :: s) := by
  unfold scopeText
  split
  · rename_i hzero
    simp [readScope, readChar, hzero]
  · have hlimit : (Nat.toDigits 10 scope.toNat).length ≤ (Nat.toDigits 10 scope.toNat ++ ']' :: s).length := by simp
    have hend : Ends digit? (']' :: s) := ends_cons (by decide)
    have hread := readNumber_whole 4294967296 scope.toNat_lt hlimit hend
    simp [readScope, readChar, hread, -List.length_append]

theorem stops_scopeText (scope : UInt32) (s : List Char) : Ipv6.Stops (scopeText scope ++ ']' :: s) := by
  unfold scopeText
  split
  · exact ⟨ends_cons (by decide), by simp, by rintro r ⟨⟩⟩
  · exact ⟨ends_cons (by decide), by simp, by rintro r ⟨⟩⟩

theorem readV4_bracket (s : List Char) : readV4 ('[' :: s) = none := by
  have hread : Ipv4.read ('[' :: s) = none := Ipv4.read_eq_none (u := []) (by simp) (ends_cons (by decide)) (by simp)
  simp [readV4, hread]

/-- An address is what is read from its text. -/
theorem parse?_text (addr : SocketAddr) : parse? addr.text = some addr := by
  cases addr with
  | v4 ip port =>
      have hend : Ends digit? (':' :: Nat.toDigits 10 port.toNat) := ends_cons (by decide)
      have hip := ip.read_text hend
      have hread : readV4 (text (.v4 ip port)).toList = some (.v4 ip port, []) := by
        simp [text, readV4, hip, readPort_text]
      simp [parse?, hread]
  | v6 ip scope port =>
      have htext : (text (.v6 ip scope port)).toList =
          '[' :: (ip.text.toList ++ (scopeText scope ++ ']' :: ':' :: Nat.toDigits 10 port.toNat)) := by
        by_cases hzero : scope = 0 <;> simp [text, scopeText, hzero]
      have hip := ip.read_text (stops_scopeText scope (':' :: Nat.toDigits 10 port.toNat))
      have hread : readV6 (text (.v6 ip scope port)).toList = some (.v6 ip scope port, []) := by
        simp [htext, readV6, readChar, hip, readScope_text, readPort_text]
      have hv4 : readV4 (text (.v6 ip scope port)).toList = none := by rw [htext, readV4_bracket]
      simp [parse?, hread, hv4]

end SocketAddr

end AgentMesh.Net
