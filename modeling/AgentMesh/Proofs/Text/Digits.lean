import AgentMesh.Json.Reader
import AgentMesh.Net.Ip

/-!
# Digits

A written number is a run of digits: at least one, and no zero before others. It is read up to the first character
that is no digit.
-/

namespace AgentMesh.Text

/-! ## Writing -/

/-- The digits that stand for a number. -/
structure Digits (base n : Nat) (ds : List Nat) : Prop where
  lt : ∀ d ∈ ds, d < base
  nonempty : ds ≠ []
  value : ds.foldl (fun n d => n * base + d) 0 = n
  leading : ds.head? = some 0 → ds.length = 1

theorem Digits.single {base d : Nat} (h : d < base) : Digits base d [d] where
  lt := by simpa using h
  nonempty := by simp
  value := by simp
  leading _ := rfl

theorem Digits.snoc {base n d : Nat} {ds : List Nat} (h : Digits base n ds) (hn : 0 < n) (hd : d < base) :
    Digits base (n * base + d) (ds ++ [d]) where
  lt c hc := by
    rcases List.mem_append.1 hc with hc | hc
    · exact h.lt c hc
    · rwa [List.mem_singleton.1 hc]
  nonempty := by simp
  value := by rw [List.foldl_append, h.value]; rfl
  leading hzero := by
    -- A number that starts with a zero is zero, and then it has no further digit.
    have hvalue := h.value
    cases ds with
    | nil => exact absurd rfl h.nonempty
    | cons c cs =>
        obtain rfl : c = 0 := by simpa using hzero
        have hcs : cs = [] := by simpa using h.leading rfl
        simp [hcs] at hvalue
        omega

theorem exists_digits {base : Nat} (hbase : 1 < base) (n : Nat) :
    ∃ ds, Nat.toDigits base n = ds.map Nat.digitChar ∧ Digits base n ds := by
  induction n using Nat.strongRecOn with
  | _ n ih =>
      by_cases h : n < base
      · exact ⟨[n], Nat.toDigits_of_lt_base h, .single h⟩
      · have hpos : 0 < n / base := Nat.div_pos (by omega) (by omega)
        obtain ⟨ds, hds, hdigits⟩ := ih (n / base) (Nat.div_lt_self (by omega) hbase)
        refine ⟨ds ++ [n % base], ?_, ?_⟩
        · rw [Nat.toDigits_of_base_le hbase (by omega), hds, List.map_append]
          rfl
        · have hsnoc := hdigits.snoc hpos (Nat.mod_lt n (by omega))
          rwa [Nat.div_add_mod'] at hsnoc

/-! ## Reading -/

/-- The text does not go on with a digit. -/
def Ends (digit : Char → Option Nat) (s : List Char) : Prop :=
  ∀ c ∈ s.head?, digit c = none

theorem ends_cons {digit : Char → Option Nat} {c : Char} {s : List Char} (h : digit c = none) :
    Ends digit (c :: s) := by
  rintro _ ⟨⟩
  exact h

theorem digit?_digitChar : ∀ d < 10, digit? (Nat.digitChar d) = some d := by
  decide

theorem hexDigit?_digitChar : ∀ d < 16, hexDigit? (Nat.digitChar d) = some d := by
  decide

theorem readDigits_map {digit : Char → Option Nat} {base : Nat} (hdigit : ∀ d < base, digit (Nat.digitChar d) = some d)
    {ds : List Nat} (h : ∀ d ∈ ds, d < base) (n : Nat) :
    readDigits digit base n (ds.map Nat.digitChar) = some (ds.foldl (fun n d => n * base + d) n) := by
  induction ds generalizing n with
  | nil => rfl
  | cons d ds ih =>
      simp [readDigits, hdigit d (h d List.mem_cons_self), ih fun e he => h e (List.mem_cons_of_mem _ he)]

theorem readNat?_toDigits (n : Nat) : readNat? (Nat.toDigits 10 n) = some n := by
  obtain ⟨ds, hds, hdigits⟩ := exists_digits (by decide : 1 < 10) n
  have hne : ds.map Nat.digitChar ≠ [] := by simpa using hdigits.nonempty
  rw [readNat?, hds, if_neg (by simpa using hne), readDigits_map digit?_digitChar hdigits.lt, hdigits.value]

/-- A written number starts with a digit. -/
theorem exists_toDigits_eq_cons (n : Nat) : ∃ d r, d < 10 ∧ Nat.toDigits 10 n = Nat.digitChar d :: r := by
  obtain ⟨ds, hds, hdigits⟩ := exists_digits (by decide : 1 < 10) n
  obtain ⟨d, ds, rfl⟩ := List.exists_cons_of_ne_nil hdigits.nonempty
  exact ⟨d, _, hdigits.lt d List.mem_cons_self, hds⟩

theorem readSigned?_toDigits (n : Nat) : readSigned? (Nat.toDigits 10 n) = some (n : Int) := by
  have hread := readNat?_toDigits n
  obtain ⟨d, r, hd, hcons⟩ := exists_toDigits_eq_cons n
  rw [hcons] at hread ⊢
  rw [readSigned?, readUnsigned?, hread]
  · rfl
  · simp
  · simp

theorem readSigned?_repr (i : Int) : readSigned? i.repr.toList = some i := by
  cases i with
  | ofNat n => rw [Int.repr, Nat.repr, String.toList_ofList, readSigned?_toDigits]; rfl
  | negSucc n => simp [Int.repr, Nat.repr, readSigned?, readNat?_toDigits, Int.negSucc_eq]

end AgentMesh.Text

namespace AgentMesh.Json

open Text

theorem readDigits_map {ds : List Nat} (h : ∀ d ∈ ds, d < 10) {rest : List Char} (hrest : Ends digit? rest) :
    readDigits (ds.map Nat.digitChar ++ rest) = (ds, rest) := by
  induction ds with
  | nil =>
      cases rest with
      | nil => rfl
      | cons c r => simp [readDigits, hrest c rfl]
  | cons d ds ih =>
      simp [readDigits, digit?_digitChar d (h d List.mem_cons_self), ih fun e he => h e (List.mem_cons_of_mem _ he)]

end AgentMesh.Json

namespace AgentMesh.Net

open Text

variable {digit : Char → Option Nat} {base limit : Nat}

theorem takeDigits_map (hdigit : ∀ d < base, digit (Nat.digitChar d) = some d) {ds : List Nat} (h : ∀ d ∈ ds, d < base)
    (hlimit : ds.length ≤ limit) {rest : List Char} (hrest : Ends digit rest) :
    takeDigits digit limit (ds.map Nat.digitChar ++ rest) = (ds, rest) := by
  induction ds generalizing limit with
  | nil =>
      cases limit with
      | zero => rfl
      | succ limit =>
          cases rest with
          | nil => rfl
          | cons c r => simp [takeDigits, hrest c rfl]
  | cons d ds ih =>
      cases limit with
      | zero => simp at hlimit
      | succ limit =>
          have hds := @ih limit (fun e he => h e (List.mem_cons_of_mem _ he)) (by simpa using hlimit)
          simp [takeDigits, hdigit d (h d List.mem_cons_self), hds]

theorem readNumber_toDigits (hbase : 1 < base) (hdigit : ∀ d < base, digit (Nat.digitChar d) = some d) {n bound : Nat}
    (hn : n < bound) (hlimit : (Nat.toDigits base n).length ≤ limit) (padded : Bool) {rest : List Char}
    (hrest : Ends digit rest) :
    readNumber digit base limit bound padded (Nat.toDigits base n ++ rest) = some (n, rest) := by
  obtain ⟨ds, hds, hdigits⟩ := exists_digits hbase n
  rw [hds, List.length_map] at hlimit
  have hvalue : ofDigits base ds = n := hdigits.value
  have hleading : ds.head? = some 0 → ds.length = 1 := hdigits.leading
  simp only [readNumber, hds, takeDigits_map hdigit hdigits.lt hlimit hrest, hvalue]
  rw [if_neg]
  cases rest with
  | nil => simpa [hdigits.nonempty, hn] using fun _ => hleading
  | cons c r => simpa [hdigits.nonempty, hn, hrest c rfl] using fun _ => hleading

end AgentMesh.Net
