import AgentMesh.Json.Printer
import AgentMesh.Proofs.Text.Digits
import AgentMesh.Proofs.Text.Utf8
import Mathlib.Tactic.SplitIfs

/-!
# Reading what was printed

A document is what is read from its compact text. Its strings must stand for texts, and its fractions must be made of
decimal digits, as they do in every document that was read.
-/

namespace AgentMesh.Json

open Text

/-! ## Strings -/

theorem hexDigit?_hexDigit : ∀ n < 16, hexDigit? (hexDigit n) = some n := by
  decide

theorem readPieces_of_plain {c : Char} (hquote : c ≠ '"') (hslash : c ≠ '\\') (hcontrol : 0x20 ≤ c.toNat)
    (s : List Char) : readPieces (c :: s) = (readPieces s).map fun (ps, rest) => (.char c :: ps, rest) := by
  rw [readPieces]
  · have hnot : ¬(c = '\\' ∨ c.toNat < 0x20) := by
      rintro (h | h)
      · exact hslash h
      · omega
    rw [if_neg hnot]
    cases readPieces s <;> rfl
  · exact hquote
  · rintro a b d e r rfl
    exact absurd rfl hslash
  · rintro e r rfl
    exact absurd rfl hslash

theorem readPieces_of_escape {c e : Char} (he : escape? e = some c) (s : List Char) :
    readPieces ('\\' :: e :: s) = (readPieces s).map fun (ps, rest) => (.char c :: ps, rest) := by
  rw [readPieces, he]
  · cases readPieces s <;> rfl
  · rintro a b d f r rfl -
    cases he

theorem readPieces_of_unit {n : Nat} (hn : n < 0x20) (s : List Char) :
    readPieces ('\\' :: 'u' :: '0' :: '0' :: hexDigit (n / 16) :: hexDigit (n % 16) :: s) =
      (readPieces s).map fun (ps, rest) => (.unit n :: ps, rest) := by
  have hunit : Text.readDigits hexDigit? 16 0 ['0', '0', hexDigit (n / 16), hexDigit (n % 16)] = some n := by
    have hhigh := hexDigit?_hexDigit (n / 16) (by omega)
    have hlow := hexDigit?_hexDigit (n % 16) (by omega)
    have hzero : hexDigit? '0' = some 0 := by decide
    simp [Text.readDigits, hzero, hhigh, hlow, Nat.div_add_mod']
  rw [readPieces, hunit]
  cases readPieces s <;> rfl

theorem joinPieces_unit {n : Nat} (hn : n < 0x20) (ps : List Piece) :
    joinPieces (.unit n :: ps) = (joinPieces ps).map (Char.ofNat n :: ·) := by
  have hhigh : isHighSurrogate n = false := by simp [isHighSurrogate]; omega
  have hlow : isLowSurrogate n = false := by simp [isLowSurrogate]; omega
  rw [joinPieces.eq_def]
  simp [hhigh, hlow]

theorem escapeChar_cases (c : Char) :
    (∃ e, escape? e = some c ∧ escapeChar c = ['\\', e]) ∨
    (c.toNat < 0x20 ∧ escapeChar c = ['\\', 'u', '0', '0', hexDigit (c.toNat / 16), hexDigit (c.toNat % 16)]) ∨
    (c ≠ '"' ∧ c ≠ '\\' ∧ 0x20 ≤ c.toNat ∧ escapeChar c = [c]) := by
  unfold escapeChar
  split_ifs with hquote hslash hb hf hn hr ht hcontrol
  all_goals try exact .inl ⟨_, by subst c; rfl, rfl⟩
  · exact .inr (.inl ⟨hcontrol, rfl⟩)
  · exact .inr (.inr ⟨hquote, hslash, by omega, rfl⟩)

/-- A character is one piece, plain or escaped, that stands for it. -/
theorem readPieces_escapeChar (c : Char) :
    ∃ p, (∀ ps, joinPieces (p :: ps) = (joinPieces ps).map (c :: ·)) ∧
      ∀ s, readPieces (escapeChar c ++ s) = (readPieces s).map fun (ps, rest) => (p :: ps, rest) := by
  have hjoin (ps : List Piece) : joinPieces (.char c :: ps) = (joinPieces ps).map (c :: ·) := by rw [joinPieces]
  rcases escapeChar_cases c with ⟨e, he, h⟩ | ⟨hcontrol, h⟩ | ⟨hquote, hslash, hcontrol, h⟩
  · exact ⟨.char c, hjoin, h ▸ readPieces_of_escape he⟩
  · refine ⟨.unit c.toNat, fun ps => ?_, h ▸ readPieces_of_unit hcontrol⟩
    rw [joinPieces_unit hcontrol, Char.ofNat_toNat]
  · exact ⟨.char c, hjoin, h ▸ readPieces_of_plain hquote hslash hcontrol⟩

theorem readPieces_flatMap (cs rest : List Char) :
    ∃ ps, readPieces (cs.flatMap escapeChar ++ '"' :: rest) = some (ps, rest) ∧ joinPieces ps = some cs := by
  induction cs with
  | nil => exact ⟨[], by simp [readPieces], rfl⟩
  | cons c cs ih =>
      obtain ⟨ps, hread, hjoin⟩ := ih
      obtain ⟨p, hpiece, hchar⟩ := readPieces_escapeChar c
      exact ⟨p :: ps, by simp [hchar, hread], by simp [hpiece, hjoin]⟩

theorem readString_quote (s : String) (rest : List Char) :
    readString (s.toList.flatMap escapeChar ++ '"' :: rest) = some (some s, rest) := by
  obtain ⟨ps, hread, hjoin⟩ := readPieces_flatMap s.toList rest
  simp [readString, hread, hjoin]

/-! ## Numbers -/

/-- Every digit of the fraction is one. -/
def Number.isDecimal (n : Number) : Bool :=
  n.fraction.all (· < 10)

/-- A value ends here: no digit follows, no point and no exponent. -/
structure Closes (s : List Char) : Prop where
  digit : Ends digit? s
  point : s.head? ≠ some '.'
  exponent : s.head? ≠ some 'e' ∧ s.head? ≠ some 'E'

theorem readDigits_printNat (n : Nat) {rest : List Char} (hrest : Ends digit? rest) :
    ∃ ds, readDigits (printNat n ++ rest) = (ds, rest) ∧ Digits 10 n ds := by
  obtain ⟨ds, hds, hdigits⟩ := exists_digits (show 1 < 10 by decide) n
  exact ⟨ds, by rw [printNat, hds, readDigits_map hdigits.lt hrest], hdigits⟩

theorem readExponentDigits_printNat (negative : Bool) (n : Nat) {rest : List Char} (hrest : Ends digit? rest) :
    readExponentDigits negative (printNat n ++ rest) = some (some (if negative then -(n : Int) else n), rest) := by
  obtain ⟨ds, hread, hdigits⟩ := readDigits_printNat n hrest
  have hvalue : ofDigits ds = n := hdigits.value
  simp [readExponentDigits, hread, hdigits.nonempty, hvalue]

theorem flatMap_printNat {ds : List Nat} (h : ∀ d ∈ ds, d < 10) : ds.flatMap printNat = ds.map Nat.digitChar := by
  induction ds with
  | nil => rfl
  | cons d ds ih =>
      rw [List.flatMap_cons, printNat, Nat.toDigits_of_lt_base (h d List.mem_cons_self),
        ih fun e he => h e (List.mem_cons_of_mem d he)]
      rfl

theorem readFraction_print {ds : List Nat} (h : ∀ d ∈ ds, d < 10) {rest : List Char} (hends : Ends digit? rest)
    (hpoint : rest.head? ≠ some '.') :
    readFraction ((if ds = [] then [] else '.' :: ds.flatMap printNat) ++ rest) = some (ds, rest) := by
  split
  · rename_i hnil
    subst hnil
    rw [List.nil_append, readFraction]
    rintro r rfl
    exact hpoint rfl
  · rename_i hne
    rw [flatMap_printNat h]
    simp [readFraction, readDigits_map h hends, hne]

/-- The text of an exponent, if there is one. -/
def printExponent : Option Int → List Char
  | none => []
  | some e => 'e' :: (if e < 0 then '-' else '+') :: printNat e.natAbs

theorem readExponent_print (e : Option Int) {rest : List Char} (hrest : Closes rest) :
    readExponent (printExponent e ++ rest) = some (e, rest) := by
  cases e with
  | none =>
      cases rest with
      | nil => rfl
      | cons c r =>
          have hexponent := hrest.exponent
          simp only [List.head?_cons, ne_eq, Option.some.injEq] at hexponent
          simp [printExponent, readExponent, hexponent]
  | some e =>
      by_cases he : e < 0
      · have hread := readExponentDigits_printNat true e.natAbs hrest.digit
        have habs : -(e.natAbs : Int) = e := by omega
        rw [if_pos rfl, habs] at hread
        simp [printExponent, readExponent, he, hread]
      · have hread := readExponentDigits_printNat false e.natAbs hrest.digit
        have habs : (e.natAbs : Int) = e := by omega
        rw [if_neg Bool.false_ne_true, habs] at hread
        simp [printExponent, readExponent, he, hread]

theorem ends_printExponent (e : Option Int) {rest : List Char} (hrest : Closes rest) :
    Ends digit? (printExponent e ++ rest) ∧ (printExponent e ++ rest).head? ≠ some '.' := by
  cases e with
  | none => exact ⟨hrest.digit, hrest.point⟩
  | some e => exact ⟨ends_cons (by decide), by simp [printExponent]⟩

/-- The text of a number without its sign. -/
def printMagnitude (n : Number) : List Char :=
  printNat n.whole ++ ((if n.fraction = [] then [] else '.' :: n.fraction.flatMap printNat) ++ printExponent n.exponent)

theorem printNumber_eq (n : Number) : printNumber n = (if n.negative then ['-'] else []) ++ printMagnitude n := by
  rw [printNumber, printMagnitude, List.append_assoc, List.append_assoc]
  congr

theorem readMagnitude_print {n : Number} (h : n.isDecimal = true) {rest : List Char} (hrest : Closes rest) :
    readMagnitude n.negative (printMagnitude n ++ rest) = some (n, rest) := by
  obtain ⟨hends, hpoint⟩ := ends_printExponent n.exponent hrest
  have hfraction : ∀ d ∈ n.fraction, d < 10 := by simpa [Number.isDecimal] using h
  have hexponent := readExponent_print n.exponent hrest
  have htail : Ends digit? ((if n.fraction = [] then [] else '.' :: n.fraction.flatMap printNat) ++
      (printExponent n.exponent ++ rest)) := by
    split
    · exact hends
    · exact ends_cons (by decide)
  obtain ⟨ds, hread, hdigits⟩ := readDigits_printNat n.whole htail
  have hvalue : ofDigits ds = n.whole := hdigits.value
  have hleading : ds.head? = some 0 → ds.length = 1 := hdigits.leading
  have hwhole : (ds.isEmpty || (ds.head? == some 0 && ds.length != 1)) = false := by
    simpa [hdigits.nonempty] using hleading
  simp only [readMagnitude, printMagnitude, List.append_assoc, hread, hwhole, readFraction_print hfraction hends hpoint,
    hvalue]
  simp [hexponent]

/-- A number starts with its sign or with a digit. -/
def StartsNumber (c : Char) : Prop :=
  c = '-' ∨ digit? c ≠ none

theorem printNat_eq_cons (n : Nat) : ∃ c r, printNat n = c :: r ∧ digit? c ≠ none := by
  obtain ⟨ds, hds, hdigits⟩ := exists_digits (show 1 < 10 by decide) n
  cases ds with
  | nil => exact absurd rfl hdigits.nonempty
  | cons d ds =>
      refine ⟨Nat.digitChar d, ds.map Nat.digitChar, hds, ?_⟩
      rw [digit?_digitChar d (hdigits.lt d List.mem_cons_self)]
      exact Option.some_ne_none d

theorem printNumber_eq_cons (n : Number) : ∃ c r, printNumber n = c :: r ∧ StartsNumber c := by
  obtain ⟨c, r, hwhole, hc⟩ := printNat_eq_cons n.whole
  rw [printNumber_eq, printMagnitude, hwhole]
  cases n.negative with
  | true => exact ⟨'-', _, rfl, .inl rfl⟩
  | false => exact ⟨c, _, rfl, .inr hc⟩

theorem readNumber_print {n : Number} (h : n.isDecimal = true) {rest : List Char} (hrest : Closes rest) :
    readNumber (printNumber n ++ rest) = some (n, rest) := by
  have hmagnitude := readMagnitude_print h hrest
  rw [printNumber_eq]
  cases hsign : n.negative with
  | true => simpa [readNumber, hsign] using hmagnitude
  | false =>
      obtain ⟨c, r, hwhole, hc⟩ := printNat_eq_cons n.whole
      have hminus : c ≠ '-' := by
        rintro rfl
        exact hc (by decide)
      rw [hsign] at hmagnitude
      rw [printMagnitude, hwhole] at hmagnitude ⊢
      rw [← hmagnitude]
      simp [readNumber, hminus]

/-! ## Values -/

theorem skipBlanks_cons {c : Char} (h : isBlank c = false) (s : List Char) : skipBlanks (c :: s) = c :: s := by
  simp [skipBlanks, h]

theorem StartsNumber.ne {c d : Char} (h : StartsNumber c) (hminus : d ≠ '-') (hdigit : digit? d = none) : c ≠ d := by
  rintro rfl
  rcases h with h | h
  · exact hminus h
  · exact h hdigit

theorem StartsNumber.not_isBlank {c : Char} (h : StartsNumber c) : isBlank c = false := by
  have hspace := h.ne (d := ' ') (by decide) (by decide)
  have hline := h.ne (d := '\n') (by decide) (by decide)
  have htab := h.ne (d := '\t') (by decide) (by decide)
  have hreturn := h.ne (d := '\r') (by decide) (by decide)
  simp [isBlank, hspace, hline, htab, hreturn]

theorem readValue_number {c : Char} (h : StartsNumber c) (fuel : Nat) (s : List Char) :
    readValue (fuel + 1) (c :: s) = (readNumber (c :: s)).map fun (n, rest) => (.number n, rest) := by
  rw [readValue, skipBlanks_cons h.not_isBlank]
  split
  case h_1 heq => cases heq
  case h_8 heq =>
    cases heq
    rfl
  all_goals
    rename_i heq
    cases heq
    exact absurd rfl (h.ne (by decide) (by decide))

theorem readValue_printNumber {n : Number} (h : n.isDecimal = true) (fuel : Nat) {rest : List Char}
    (hrest : Closes rest) : readValue (fuel + 1) (printNumber n ++ rest) = some (.number n, rest) := by
  have hread := readNumber_print h hrest
  obtain ⟨c, r, hprint, hc⟩ := printNumber_eq_cons n
  rw [hprint, List.cons_append] at hread ⊢
  rw [readValue_number hc, hread]
  rfl

/-- The first character of a document, which is no blank and closes no bracket. -/
theorem print_eq_cons {v : Json} (h : v.wellFormed Number.isDecimal = true) :
    ∃ c r, v.print = c :: r ∧ isBlank c = false ∧ c ≠ ']' := by
  cases v with
  | null => exact ⟨'n', _, rfl, by decide, by decide⟩
  | bool b => cases b <;> exact ⟨_, _, rfl, by decide, by decide⟩
  | number n =>
      obtain ⟨c, r, hprint, hc⟩ := printNumber_eq_cons n
      exact ⟨c, r, hprint, hc.not_isBlank, hc.ne (by decide) (by decide)⟩
  | string t =>
      cases t with
      | none => cases h
      | some s => exact ⟨'"', _, rfl, by decide, by decide⟩
  | array items => cases items <;> exact ⟨'[', _, rfl, by decide, by decide⟩
  | object members => cases members <;> exact ⟨'\x7b', _, rfl, by decide, by decide⟩

theorem closes_cons {c : Char} (h : c = ',' ∨ c = ']' ∨ c = '\x7d') (s : List Char) : Closes (c :: s) := by
  rcases h with rfl | rfl | rfl <;> exact ⟨ends_cons (by decide), by simp, by simp⟩

theorem closes_nil : Closes [] :=
  ⟨nofun, nofun, nofun, nofun⟩

theorem readValue_array {c : Char} (hblank : isBlank c = false) (hclose : c ≠ ']') (fuel : Nat) (s : List Char) :
    readValue (fuel + 1) ('[' :: c :: s) = (readItems fuel (c :: s)).map fun (vs, rest) => (.array vs, rest) := by
  have hopen := skipBlanks_cons (show isBlank '[' = false by decide) (c :: s)
  simp [readValue, hopen, skipBlanks_cons hblank, hclose]

theorem readValue_object (fuel : Nat) (s : List Char) :
    readValue (fuel + 1) ('\x7b' :: '"' :: s) =
      (readMembers fuel ('"' :: s)).map fun (ms, rest) => (.object ms, rest) := by
  simp [readValue, skipBlanks_cons, isBlank]

theorem printText_some (s : String) : printText (some s) = '"' :: (s.toList.flatMap escapeChar ++ ['"']) :=
  rfl

-- The induction is on the document; what follows a value is the comma or the bracket after it.
mutual

theorem readValue_print : ∀ (v : Json), v.wellFormed Number.isDecimal = true → ∀ fuel, 2 * v.print.length < fuel →
    ∀ rest, Closes rest → readValue fuel (v.print ++ rest) = some (v, rest)
  | v, _, 0, hfuel, _, _ => absurd hfuel (Nat.not_lt_zero _)
  | .null, _, fuel + 1, _, rest, _ => by simp [print, readValue, skipBlanks_cons, isBlank]
  | .bool true, _, fuel + 1, _, rest, _ => by simp [print, readValue, skipBlanks_cons, isBlank]
  | .bool false, _, fuel + 1, _, rest, _ => by simp [print, readValue, skipBlanks_cons, isBlank]
  | .number n, hv, fuel + 1, _, rest, hrest => readValue_printNumber hv fuel hrest
  | .string (some s), _, fuel + 1, _, rest, _ => by
      simp [print, printText_some, readValue, skipBlanks_cons, isBlank, readString_quote]
  | .array [], _, fuel + 1, _, rest, _ => by simp [print, readValue, skipBlanks_cons, isBlank]
  | .array (v :: r), hv, fuel + 1, hfuel, rest, _ => by
      have hlength : 2 * (printItems (v :: r)).length ≤ fuel := by simp [print, printItems] at hfuel ⊢; omega
      have hitems := readItems_print (v :: r) (by simp) hv fuel hlength rest
      obtain ⟨c, s, hprint, hblank, hclose⟩ := print_eq_cons (Bool.and_eq_true_iff.1 hv).1
      simp only [printItems, List.tail_cons, hprint, List.cons_append, List.append_assoc] at hitems
      simp [print, hprint, readValue_array hblank hclose, hitems]
  | .object [], _, fuel + 1, _, rest, _ => by simp [print, readValue, skipBlanks_cons, isBlank]
  | .object ((some k, v) :: r), hv, fuel + 1, hfuel, rest, _ => by
      have hlength : 2 * (printMembers ((some k, v) :: r)).length ≤ fuel := by
        simp [print, printMembers] at hfuel ⊢
        omega
      have hmembers := readMembers_print ((some k, v) :: r) (by simp) hv fuel hlength rest
      simp only [printMembers, List.tail_cons, printText_some, List.cons_append, List.append_assoc, List.nil_append]
        at hmembers
      simp [print, printText_some, readValue_object, hmembers]

theorem readItems_print : ∀ vs, vs ≠ [] → wellFormedItems Number.isDecimal vs = true → ∀ fuel,
    2 * (printItems vs).length ≤ fuel → ∀ rest,
    readItems fuel ((printItems vs).tail ++ ']' :: rest) = some (vs, rest)
  | v :: vs, _, _, 0, hfuel, _ => by simp [printItems] at hfuel
  | [v], _, hvs, fuel + 1, hfuel, rest => by
      have hlength : 2 * v.print.length < fuel := by simp [printItems] at hfuel; omega
      have hread := readValue_print v (Bool.and_eq_true_iff.1 hvs).1 fuel hlength _ (closes_cons (.inr (.inl rfl)) rest)
      simp [printItems, readItems, hread, skipBlanks_cons, isBlank]
  | v :: w :: r, _, hvs, fuel + 1, hfuel, rest => by
      obtain ⟨hv, hr⟩ := Bool.and_eq_true_iff.1 hvs
      have hlength : 2 * v.print.length < fuel := by simp [printItems] at hfuel; omega
      have hlengths : 2 * (printItems (w :: r)).length ≤ fuel := by simp [printItems] at hfuel ⊢; omega
      have hread := readValue_print v hv fuel hlength _
        (closes_cons (.inl rfl) ((printItems (w :: r)).tail ++ ']' :: rest))
      have hitems := readItems_print (w :: r) (by simp) hr fuel hlengths rest
      simp only [printItems, List.tail_cons, List.append_assoc] at hread hitems
      simp [printItems, readItems, hread, hitems, skipBlanks_cons, isBlank]

theorem readMembers_print : ∀ ms, ms ≠ [] → wellFormedMembers Number.isDecimal ms = true → ∀ fuel,
    2 * (printMembers ms).length ≤ fuel → ∀ rest,
    readMembers fuel ((printMembers ms).tail ++ '\x7d' :: rest) = some (ms, rest)
  | m :: ms, _, _, 0, hfuel, _ => by simp [printMembers] at hfuel
  | [(some k, v)], _, hms, fuel + 1, hfuel, rest => by
      have hlength : 2 * v.print.length < fuel := by simp [printMembers] at hfuel; omega
      have hread := readValue_print v (Bool.and_eq_true_iff.1 hms).1 fuel hlength _ (closes_cons (.inr (.inr rfl)) rest)
      simp [printMembers, printText_some, readMembers, readString_quote, hread, skipBlanks_cons, isBlank]
  | (some k, v) :: (l, w) :: r, _, hms, fuel + 1, hfuel, rest => by
      obtain ⟨hv, hr⟩ := Bool.and_eq_true_iff.1 hms
      have hlength : 2 * v.print.length < fuel := by simp [printMembers] at hfuel; omega
      have hlengths : 2 * (printMembers ((l, w) :: r)).length ≤ fuel := by simp [printMembers] at hfuel ⊢; omega
      have hread := readValue_print v hv fuel hlength _
        (closes_cons (.inl rfl) ((printMembers ((l, w) :: r)).tail ++ '\x7d' :: rest))
      have hmembers := readMembers_print ((l, w) :: r) (by simp) hr fuel hlengths rest
      simp only [printMembers, List.tail_cons, List.append_assoc, List.cons_append] at hread hmembers
      simp [printMembers, printText_some, readMembers, readString_quote, hread, hmembers, skipBlanks_cons, isBlank]

end

/-! ## Documents -/

theorem parse_print {v : Json} (h : v.wellFormed Number.isDecimal = true) : parse v.print = some v := by
  have hread := readValue_print v h (2 * v.print.length + 2) (by omega) [] closes_nil
  rw [List.append_nil] at hread
  simp only [parse, hread, Option.bind_eq_bind, Option.bind_some]
  rfl

theorem ofUtf8?_compact {v : Json} (h : v.wellFormed Number.isDecimal = true) : ofUtf8? v.compact.toUTF8 = some v := by
  have htext : (compact v).toList = v.print := String.toList_ofList
  rw [ofUtf8?, fromUTF8?_toUTF8, Option.bind_eq_bind, Option.bind_some, htext, parse_print h]

end AgentMesh.Json
