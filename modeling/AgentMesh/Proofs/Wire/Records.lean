import AgentMesh.Proofs.Wire.Varint
import AgentMesh.Wire.Record

/-!
# Well-formed records

What bytes are a sequence of well-formed records, said without the reader. A record in a group is one level deeper
than the group, and this counts for plain records as for groups. The reader finds the records of every such sequence
that is not too deep, and takes nothing else.
-/

namespace AgentMesh.Wire

/-! ## Keys and payloads -/

/-- The bytes of a key: a field number of at most 29 bits, never zero, and the form of the payload. -/
structure KeyOf (number : Nat) (type : WireType) (b : Bytes) : Prop where
  pos : 0 < number
  lt : number < 2 ^ 29
  spells : Varint.Spells b (number * 8 + type.code)

/-- The bytes of a payload that is no group. -/
inductive PayloadOf : WireType → Payload → Bytes → Prop
  | varint {b : Bytes} {n : Nat} (h : Varint.Spells b n) : PayloadOf .varint (.varint n) b
  | fixed64 {v : Bytes} (h : v.length = 8) : PayloadOf .fixed64 (.fixed64 v) v
  | delimited {b v : Bytes} (h : Varint.Spells b v.length) : PayloadOf .delimited (.delimited v) (b ++ v)
  | fixed32 {v : Bytes} (h : v.length = 4) : PayloadOf .fixed32 (.fixed32 v) v

/-- A sequence of records with at most so many levels, and its bytes. -/
inductive Spelled : Nat → List Record → Bytes → Prop
  | nil {depth : Nat} : Spelled depth [] []
  | plain {depth number : Nat} {type : WireType} {payload : Payload} {key b rest : Bytes} {rs : List Record}
      (hkey : KeyOf number type key) (hpayload : PayloadOf type payload b) (hrest : Spelled (depth + 1) rs rest) :
      Spelled (depth + 1) (⟨number, payload⟩ :: rs) (key ++ (b ++ rest))
  | group {depth number : Nat} {opening body closing rest : Bytes} {inner rs : List Record}
      (hopening : KeyOf number .groupStart opening) (hbody : Spelled depth inner body)
      (hclosing : KeyOf number .groupEnd closing) (hrest : Spelled (depth + 1) rs rest) :
      Spelled (depth + 1) (⟨number, .group⟩ :: rs) (opening ++ (body ++ (closing ++ rest)))

variable {number depth : Nat} {type : WireType} {payload : Payload} {b b' : Bytes} {rs rs' : List Record}

theorem KeyOf.ne_nil (h : KeyOf number type b) : b ≠ [] :=
  h.spells.writes.ne_nil

theorem WireType.ofCode?_code (type : WireType) : ofCode? type.code = some type := by
  cases type <;> rfl

theorem WireType.code_lt (type : WireType) : type.code < 6 := by
  cases type <;> decide

theorem keyOf_encodeKey (hpos : 0 < number) (hlt : number < 2 ^ 29) (type : WireType) :
    KeyOf number type (encodeKey number type) where
  pos := hpos
  lt := hlt
  spells := Varint.spells_encode (by have := type.code_lt; omega)

theorem KeyOf.decodeKey (h : KeyOf number type b) (rest : Bytes) :
    decodeKey (b ++ rest) = some (number, type, rest) := by
  have hcode := type.code_lt
  have hmod : (number * 8 + type.code) % 8 = type.code := by omega
  have hdiv : (number * 8 + type.code) / 8 = number := by omega
  have hkey : number * 8 + type.code < 4294967296 ∧ number ≠ 0 := ⟨by have := h.lt; omega, by have := h.pos; omega⟩
  simp only [Wire.decodeKey, h.spells.decode rest, bind, Option.bind, hmod, hdiv, type.ofCode?_code, if_pos hkey]

theorem splitBytes_append (v rest : Bytes) : splitBytes v.length (v ++ rest) = some (v, rest) := by
  rw [splitBytes, if_pos (by simp), List.take_left, List.drop_left]

theorem PayloadOf.decodePayload (h : PayloadOf type payload b) (rest : Bytes) :
    decodePayload type (b ++ rest) = some (payload, rest) := by
  cases h with
  | varint h => rw [Wire.decodePayload, h.decode]; rfl
  | fixed64 h => rw [Wire.decodePayload, ← h, splitBytes_append]; rfl
  | delimited h =>
      simp only [Wire.decodePayload, List.append_assoc, h.decode, bind, Option.bind, splitBytes_append]
      rfl
  | fixed32 h => rw [Wire.decodePayload, ← h, splitBytes_append]; rfl

theorem PayloadOf.type_ne (h : PayloadOf type payload b) : type ≠ .groupStart ∧ type ≠ .groupEnd := by
  cases h <;> exact ⟨nofun, nofun⟩

/-! ## Sequences -/

theorem Spelled.mono (h : Spelled depth rs b) {depth' : Nat} (hle : depth ≤ depth') : Spelled depth' rs b := by
  induction h generalizing depth' with
  | nil => exact .nil
  | plain hkey hpayload _ ih =>
      obtain ⟨depth', rfl⟩ : ∃ d, depth' = d + 1 := ⟨depth' - 1, by omega⟩
      exact .plain hkey hpayload (ih hle)
  | group hopening _ hclosing _ ihbody ihrest =>
      obtain ⟨depth', rfl⟩ : ∃ d, depth' = d + 1 := ⟨depth' - 1, by omega⟩
      exact .group hopening (ihbody (by omega)) hclosing (ihrest hle)

theorem Spelled.append (h : Spelled depth rs b) (h' : Spelled depth rs' b') : Spelled depth (rs ++ rs') (b ++ b') := by
  induction h with
  | nil => exact h'
  | plain hkey hpayload _ ih =>
      rw [List.cons_append, List.append_assoc, List.append_assoc]
      exact .plain hkey hpayload (ih h')
  | group hopening hbody hclosing _ _ ih =>
      rw [List.cons_append, List.append_assoc, List.append_assoc, List.append_assoc]
      exact .group hopening hbody hclosing (ih h')

/-! ## Reading -/

/-- A reader that takes a key has fuel for it, and goes on with fuel for what follows. -/
theorem KeyOf.exists_fuel (h : KeyOf number type b) {fuel : Nat} {rest : Bytes} (hfuel : (b ++ rest).length ≤ fuel) :
    ∃ fuel', fuel = fuel' + 1 ∧ rest.length ≤ fuel' := by
  have hpos := List.length_pos_iff.mpr h.ne_nil
  rw [List.length_append] at hfuel
  exact ⟨fuel - 1, by omega, by omega⟩

theorem length_le_of_append {fuel : Nat} {rest : Bytes} (h : (b ++ rest).length ≤ fuel) : rest.length ≤ fuel := by
  rw [List.length_append] at h
  omega

/-- What stands in open groups is skipped, with fuel left for what follows. -/
theorem Spelled.skipGroups (h : Spelled depth rs b) {fuel limit : Nat} (outer : List Nat) (rest : Bytes)
    (hfuel : (b ++ rest).length ≤ fuel) (hlimit : outer.length + 1 + depth ≤ limit) (number : Nat) :
    ∃ fuel', rest.length ≤ fuel' ∧
      skipGroups fuel limit (number :: outer) (b ++ rest) = skipGroups fuel' limit (number :: outer) rest := by
  induction h generalizing fuel outer rest number with
  | nil => exact ⟨fuel, hfuel, rfl⟩
  | @plain depth k type payload key b tail rs hkey hpayload _ ih =>
      rw [List.append_assoc, List.append_assoc] at hfuel ⊢
      obtain ⟨fuel, rfl, hleft⟩ := hkey.exists_fuel hfuel
      obtain ⟨fuel', hfuel', heq⟩ := ih outer rest (length_le_of_append hleft) hlimit number
      refine ⟨fuel', hfuel', ?_⟩
      have hroom : ¬ limit ≤ outer.length + 1 := by omega
      obtain ⟨hstart, hend⟩ := hpayload.type_ne
      rw [← heq, Wire.skipGroups]
      simp only [hkey.decodeKey, bind, Option.bind]
      cases type with
      | groupStart => exact absurd rfl hstart
      | groupEnd => exact absurd rfl hend
      | _ => simp only [if_neg hroom, hpayload.decodePayload]
  | @group depth k opening body closing tail inner rs hopening _ hclosing _ ihbody ihrest =>
      rw [List.append_assoc, List.append_assoc, List.append_assoc] at hfuel ⊢
      obtain ⟨fuel, rfl, hleft⟩ := hopening.exists_fuel hfuel
      have hdeeper : (number :: outer).length + 1 + depth ≤ limit := by rw [List.length_cons]; omega
      obtain ⟨fuel₁, hfuel₁, hbody⟩ := ihbody (number :: outer) (closing ++ (tail ++ rest)) hleft hdeeper k
      obtain ⟨fuel₁, rfl, hleft₁⟩ := hclosing.exists_fuel hfuel₁
      obtain ⟨fuel₂, hfuel₂, hrest⟩ := ihrest outer rest hleft₁ hlimit number
      refine ⟨fuel₂, hfuel₂, ?_⟩
      have hroom : ¬ limit ≤ outer.length + 1 := by omega
      rw [← hrest, Wire.skipGroups]
      simp only [hopening.decodeKey, bind, Option.bind, if_neg hroom, hbody]
      rw [Wire.skipGroups]
      simp only [hclosing.decodeKey, bind, Option.bind, if_true]

theorem readRecords_of_ne_nil (h : b ≠ []) (fuel limit : Nat) : readRecords (fuel + 1) limit b = (do
    let (number, type, rest) ← decodeKey b
    match type with
    | .groupEnd => none
    | .groupStart =>
        if limit = 0 then none
        else do
          let rest ← skipGroups rest.length limit [number] rest
          return ⟨number, .group⟩ :: (← readRecords fuel limit rest)
    | type => do
        let (payload, rest) ← decodePayload type rest
        return ⟨number, payload⟩ :: (← readRecords fuel limit rest)) := by
  cases b with
  | nil => exact absurd rfl h
  | cons x r => rfl

/-- The records of a sequence are read first, and what follows is read with the fuel that is left. -/
theorem Spelled.readRecords (h : Spelled depth rs b) {fuel limit : Nat} (rest : Bytes)
    (hfuel : (b ++ rest).length ≤ fuel) (hlimit : depth ≤ limit) :
    ∃ fuel', rest.length ≤ fuel' ∧
      readRecords fuel limit (b ++ rest) = (readRecords fuel' limit rest).map (rs ++ ·) := by
  induction h generalizing fuel with
  | nil => exact ⟨fuel, hfuel, by simp⟩
  | @plain depth k type payload key b tail rs hkey hpayload _ ih =>
      rw [List.append_assoc, List.append_assoc] at hfuel ⊢
      obtain ⟨fuel, rfl, hleft⟩ := hkey.exists_fuel hfuel
      obtain ⟨hstart, hend⟩ := hpayload.type_ne
      obtain ⟨fuel', hfuel', heq⟩ := ih (length_le_of_append hleft) hlimit
      refine ⟨fuel', hfuel', ?_⟩
      rw [readRecords_of_ne_nil (List.append_ne_nil_of_left_ne_nil hkey.ne_nil _)]
      simp only [hkey.decodeKey, bind, Option.bind]
      cases type with
      | groupStart => exact absurd rfl hstart
      | groupEnd => exact absurd rfl hend
      | _ => simp only [hpayload.decodePayload, heq]; cases Wire.readRecords fuel' limit rest <;> rfl
  | @group depth k opening body closing tail inner rs hopening hbody hclosing _ _ ih =>
      rw [List.append_assoc, List.append_assoc, List.append_assoc] at hfuel ⊢
      obtain ⟨fuel, rfl, hleft⟩ := hopening.exists_fuel hfuel
      have hroom : limit ≠ 0 := by omega
      obtain ⟨fuel₁, hfuel₁, hskip⟩ := hbody.skipGroups [] (closing ++ (tail ++ rest)) (Nat.le_refl _)
        (show 0 + 1 + depth ≤ limit by omega) k
      obtain ⟨fuel₁, rfl, -⟩ := hclosing.exists_fuel hfuel₁
      have hclosed : Wire.skipGroups (fuel₁ + 1) limit [k] (closing ++ (tail ++ rest)) = some (tail ++ rest) := by
        rw [Wire.skipGroups]
        simp only [hclosing.decodeKey, bind, Option.bind, if_true]
        cases fuel₁ <;> rfl
      obtain ⟨fuel', hfuel', heq⟩ := ih (length_le_of_append (length_le_of_append hleft)) hlimit
      refine ⟨fuel', hfuel', ?_⟩
      rw [readRecords_of_ne_nil (List.append_ne_nil_of_left_ne_nil hopening.ne_nil _)]
      simp only [hopening.decodeKey, bind, Option.bind, if_neg hroom, hskip, hclosed, heq]
      cases Wire.readRecords fuel' limit rest <;> rfl

/-- The reader finds the records of every well-formed sequence with no more levels than it is allowed. -/
theorem Spelled.decodeRecords (h : Spelled depth rs b) {limit : Nat} (hlimit : depth ≤ limit) :
    decodeRecords limit b = some rs := by
  obtain ⟨fuel, -, hread⟩ := h.readRecords [] (Nat.le_refl _) hlimit
  rw [List.append_nil] at hread
  rw [Wire.decodeRecords, hread]
  cases fuel <;> exact congrArg some (List.append_nil rs)

/-! ## What is read -/

theorem WireType.code_of_ofCode? {code : Nat} (h : ofCode? code = some type) : type.code = code := by
  unfold ofCode? at h
  split at h <;> cases h <;> rfl

theorem exists_keyOf_of_decodeKey {rest : Bytes} (h : decodeKey b = some (number, type, rest)) :
    ∃ own, b = own ++ rest ∧ KeyOf number type own := by
  obtain ⟨⟨key, rest'⟩, hkey, h⟩ := Option.bind_eq_some_iff.1 h
  obtain ⟨type', htype, h⟩ := Option.bind_eq_some_iff.1 h
  split at h
  · rename_i hrange
    cases h
    obtain ⟨own, hb, hspells⟩ := Varint.exists_spells_of_decode hkey
    have hcode := WireType.code_of_ofCode? htype
    have hwhole : key / 8 * 8 + type.code = key := by omega
    exact ⟨own, hb, by omega, by omega, hwhole.symm ▸ hspells⟩
  · cases h

theorem eq_append_of_splitBytes {n : Nat} {v rest : Bytes} (h : splitBytes n b = some (v, rest)) :
    b = v ++ rest ∧ v.length = n := by
  rw [splitBytes] at h
  split at h
  · rename_i hn
    cases h
    exact ⟨(List.take_append_drop n b).symm, by rw [List.length_take, Nat.min_eq_left hn]⟩
  · cases h

theorem exists_payloadOf_of_decodePayload {rest : Bytes} (h : decodePayload type b = some (payload, rest)) :
    ∃ own, b = own ++ rest ∧ PayloadOf type payload own := by
  cases type with
  | varint =>
      obtain ⟨⟨n, rest'⟩, hn, heq⟩ := Option.map_eq_some_iff.1 h
      cases heq
      obtain ⟨own, hb, hspells⟩ := Varint.exists_spells_of_decode hn
      exact ⟨own, hb, .varint hspells⟩
  | fixed64 =>
      obtain ⟨⟨v, rest'⟩, hv, heq⟩ := Option.map_eq_some_iff.1 h
      cases heq
      obtain ⟨hb, hlength⟩ := eq_append_of_splitBytes hv
      exact ⟨v, hb, .fixed64 hlength⟩
  | delimited =>
      obtain ⟨⟨n, rest'⟩, hn, h⟩ := Option.bind_eq_some_iff.1 h
      obtain ⟨⟨v, rest''⟩, hv, heq⟩ := Option.bind_eq_some_iff.1 h
      cases heq
      obtain ⟨own, rfl, hspells⟩ := Varint.exists_spells_of_decode hn
      obtain ⟨rfl, rfl⟩ := eq_append_of_splitBytes hv
      exact ⟨own ++ v, (List.append_assoc ..).symm, .delimited hspells⟩
  | groupStart => cases h
  | groupEnd => cases h
  | fixed32 =>
      obtain ⟨⟨v, rest'⟩, hv, heq⟩ := Option.map_eq_some_iff.1 h
      cases heq
      obtain ⟨hb, hlength⟩ := eq_append_of_splitBytes hv
      exact ⟨v, hb, .fixed32 hlength⟩

/-- The bytes begin with so many levels of records and the end of a group, and then the groups around it are skipped. -/
def EndsGroup (fuel limit levels number : Nat) (outer : List Nat) (b rest : Bytes) : Prop :=
  ∃ inner body closing rest' fuel', b = body ++ (closing ++ rest') ∧ Spelled levels inner body ∧
    KeyOf number .groupEnd closing ∧ fuel' < fuel ∧ skipGroups fuel' limit outer rest' = some rest

section EndsGroup

variable {fuel limit levels k : Nat} {outer : List Nat} {key own tail rest : Bytes}

theorem EndsGroup.plain (hkey : KeyOf k type key) (hown : PayloadOf type payload own)
    (h : EndsGroup fuel limit (levels + 1) number outer tail rest) :
    EndsGroup (fuel + 1) limit (levels + 1) number outer (key ++ (own ++ tail)) rest := by
  obtain ⟨inner, body, closing, rest', fuel', rfl, hbody, hclosing, hfuel, hskip⟩ := h
  exact ⟨_, key ++ (own ++ body), closing, rest', fuel', by simp, .plain hkey hown hbody, hclosing, by omega, hskip⟩

theorem EndsGroup.group (hkey : KeyOf k .groupStart key)
    (h : EndsGroup fuel limit levels k (number :: outer) tail rest)
    (hnext : ∀ {fuel' rest'}, fuel' < fuel → skipGroups fuel' limit (number :: outer) rest' = some rest →
      EndsGroup fuel' limit (levels + 1) number outer rest' rest) :
    EndsGroup (fuel + 1) limit (levels + 1) number outer (key ++ tail) rest := by
  obtain ⟨inner, body, closing, tail, fuel₁, rfl, hbody, hclosing, hfuel₁, hskip⟩ := h
  obtain ⟨rs, after, own, rest', fuel₂, rfl, hafter, hown, hfuel₂, hskip⟩ := hnext hfuel₁ hskip
  exact ⟨_, key ++ (body ++ (closing ++ after)), own, rest', fuel₂, by simp, .group hkey hbody hclosing hafter, hown,
    by omega, hskip⟩

/-- What is skipped up to the end of a group is a sequence in the levels that are left, and this end. -/
theorem endsGroup_of_skipGroups (h : skipGroups fuel limit (number :: outer) b = some rest) :
    EndsGroup fuel limit (limit - (outer.length + 1)) number outer b rest := by
  induction fuel using Nat.strongRecOn generalizing b number outer rest with
  | ind fuel ih =>
      cases fuel with
      | zero => cases h
      | succ fuel =>
          rw [Wire.skipGroups] at h
          obtain ⟨⟨k, type, tail⟩, hkey, h⟩ := Option.bind_eq_some_iff.1 h
          obtain ⟨key, rfl, hkeyOf⟩ := exists_keyOf_of_decodeKey hkey
          -- Whatever is no end takes a level, so there is one left.
          have hlevel (hroom : ¬limit ≤ outer.length + 1) :
              ∃ levels, limit - (outer.length + 1) = levels + 1 := ⟨limit - (outer.length + 1) - 1, by omega⟩
          cases type with
          | groupEnd =>
              dsimp only at h
              split at h
              · rename_i hk
                exact ⟨[], [], key, tail, fuel, rfl, .nil, hk ▸ hkeyOf, Nat.lt_succ_self fuel, h⟩
              · cases h
          | groupStart =>
              dsimp only at h
              split at h
              · cases h
              · rename_i hroom
                obtain ⟨levels, hlevels⟩ := hlevel hroom
                have hinside : limit - ((number :: outer).length + 1) = levels := by rw [List.length_cons]; omega
                have hinner := ih fuel (Nat.lt_succ_self fuel) h
                rw [hinside] at hinner
                rw [hlevels]
                exact .group hkeyOf hinner fun hfuel hskip => hlevels ▸ ih _ (by omega) hskip
          | _ =>
              dsimp only at h
              split at h
              · cases h
              · rename_i hroom
                obtain ⟨⟨payload, tail'⟩, hpayload, hskip⟩ := Option.bind_eq_some_iff.1 h
                obtain ⟨own, rfl, hown⟩ := exists_payloadOf_of_decodePayload hpayload
                obtain ⟨levels, hlevels⟩ := hlevel hroom
                rw [hlevels]
                exact .plain hkeyOf hown (hlevels ▸ ih fuel (Nat.lt_succ_self fuel) hskip)

end EndsGroup

/-- What is read is a well-formed sequence with no more levels than are allowed. -/
theorem spelled_of_readRecords {fuel limit : Nat} (hlimit : 0 < limit) (h : readRecords fuel limit b = some rs) :
    Spelled limit rs b := by
  obtain ⟨levels, rfl⟩ : ∃ levels, limit = levels + 1 := ⟨limit - 1, by omega⟩
  induction fuel generalizing b rs with
  | zero =>
      cases b with
      | nil => cases h; exact .nil
      | cons x r => cases h
  | succ fuel ih =>
      by_cases hb : b = []
      · subst hb
        cases h
        exact .nil
      · rw [readRecords_of_ne_nil hb] at h
        obtain ⟨⟨number, type, tail⟩, hkey, h⟩ := Option.bind_eq_some_iff.1 h
        obtain ⟨key, rfl, hkeyOf⟩ := exists_keyOf_of_decodeKey hkey
        cases type with
        | groupEnd => cases h
        | groupStart =>
            dsimp only at h
            rw [if_neg (by omega)] at h
            obtain ⟨rest, hskip, h⟩ := Option.bind_eq_some_iff.1 h
            obtain ⟨rs, hrest, heq⟩ := Option.bind_eq_some_iff.1 h
            cases heq
            obtain ⟨inner, body, closing, rest', fuel', rfl, hbody, hclosing, -, hskip⟩ := endsGroup_of_skipGroups hskip
            obtain rfl : rest' = rest := by
              cases fuel' <;> cases hskip <;> rfl
            exact .group hkeyOf hbody hclosing (ih hrest)
        | _ =>
            obtain ⟨⟨payload, rest⟩, hpayload, h⟩ := Option.bind_eq_some_iff.1 h
            obtain ⟨rs, hrest, heq⟩ := Option.bind_eq_some_iff.1 h
            cases heq
            obtain ⟨own, rfl, hown⟩ := exists_payloadOf_of_decodePayload hpayload
            exact .plain hkeyOf hown (ih hrest)

/-- If a sequence can be read together with what follows it, then so can what follows. -/
theorem exists_spelled_of_decodeRecords_append {limit : Nat} (hlimit : 0 < limit) {rest : Bytes}
    (h : Spelled limit rs b) (hread : decodeRecords limit (b ++ rest) = some rs') :
    ∃ after, Spelled limit after rest := by
  obtain ⟨fuel, -, heq⟩ := h.readRecords rest (Nat.le_refl _) (Nat.le_refl limit)
  rw [Wire.decodeRecords, heq] at hread
  obtain ⟨after, hafter, -⟩ := Option.map_eq_some_iff.1 hread
  exact ⟨after, spelled_of_readRecords hlimit hafter⟩

end AgentMesh.Wire
