import AgentMesh.Wire.Varint
import Mathlib.Algebra.Order.Ring.Int

/-!
# How numbers are written

A number may be padded with groups of zeros, so it is written in several ways, one of which is its encoding. The reader
takes every way of at most ten bytes, and nothing else, and leaves what follows.
-/

namespace AgentMesh.Wire.Varint

/-- The bytes stand for the number: seven bits each, the lowest first, and only the last has no top bit. -/
inductive Writes : Nat → Bytes → Prop
  | last {b : UInt8} (h : b.toNat < 128) : Writes b.toNat [b]
  | more {b : UInt8} {n : Nat} {r : Bytes} (h : 128 ≤ b.toNat) (hr : Writes n r) :
      Writes (b.toNat - 128 + 128 * n) (b :: r)

/-- A well-formed number: 64 bits in at most ten bytes. -/
structure Spells (b : Bytes) (n : Nat) : Prop where
  writes : Writes n b
  length_le : b.length ≤ 10
  lt : n < 2 ^ 64

variable {n : Nat} {b : Bytes}

theorem Writes.ne_nil (h : Writes n b) : b ≠ [] := by
  cases h <;> exact List.cons_ne_nil _ _

theorem toNat_ofNat_of_lt {k : Nat} (h : k < 256) : (UInt8.ofNat k).toNat = k := by
  rw [UInt8.toNat_ofNat']
  exact Nat.mod_eq_of_lt h

theorem spells_byte {b : UInt8} (h : b.toNat < 128) : Spells [b] b.toNat where
  writes := .last h
  length_le := by simp
  lt := by omega

theorem writes_encode (n : Nat) : Writes n (encode n) := by
  induction n using Nat.strongRecOn with
  | ind n ih =>
      rw [encode]
      by_cases hsmall : n < 128
      · rw [if_pos hsmall]
        have hbyte := toNat_ofNat_of_lt (show n < 256 by omega)
        have hlast : Writes (UInt8.ofNat n).toNat [UInt8.ofNat n] := .last (by omega)
        rwa [hbyte] at hlast
      · rw [if_neg hsmall]
        have hbyte := toNat_ofNat_of_lt (show n % 128 + 128 < 256 by omega)
        have hmore : Writes ((UInt8.ofNat (n % 128 + 128)).toNat - 128 + 128 * (n / 128))
            (UInt8.ofNat (n % 128 + 128) :: encode (n / 128)) := .more (by omega) (ih (n / 128) (by omega))
        rw [hbyte] at hmore
        have hn : n % 128 + 128 - 128 + 128 * (n / 128) = n := by omega
        rwa [hn] at hmore

theorem length_encode_le (k : Nat) : ∀ n < 128 ^ (k + 1), (encode n).length ≤ k + 1 := by
  induction k with
  | zero =>
      intro n hn
      rw [encode, if_pos (by omega)]
      exact Nat.le_refl 1
  | succ k ih =>
      intro n hn
      rw [encode]
      split
      · simp
      · have hdiv : n / 128 < 128 ^ (k + 1) := by
          rw [Nat.div_lt_iff_lt_mul (by omega)]
          rwa [Nat.pow_succ] at hn
        have := ih (n / 128) hdiv
        rw [List.length_cons]
        omega

/-- The encoding of a 64-bit number is one of the ways to write it. -/
theorem spells_encode (h : n < 2 ^ 64) : Spells (encode n) n where
  writes := writes_encode n
  length_le := length_encode_le 9 n (Nat.lt_trans h (by decide))
  lt := h

/-- A reader with room for `k + 1` bytes takes numbers of `7 * k + 1` bits. -/
theorem Writes.decodeIn (h : Writes n b) {k : Nat} (hlength : b.length ≤ k + 1) (hn : n < 2 ^ (7 * k + 1))
    (rest : Bytes) : decodeIn (k + 1) (b ++ rest) = some (n, rest) := by
  induction h generalizing k with
  | @last b h =>
      have hbit : ¬ (k = 0 ∧ 1 < b.toNat) := by
        rintro ⟨rfl, hb⟩
        omega
      rw [List.singleton_append, Varint.decodeIn, if_pos h, if_neg hbit]
  | @more b n r h hr ih =>
      have hpos : 0 < r.length := List.length_pos_iff.mpr hr.ne_nil
      obtain ⟨k, rfl⟩ : ∃ j, k = j + 1 := ⟨k - 1, by rw [List.length_cons] at hlength; omega⟩
      have hroom : n < 2 ^ (7 * k + 1) := by
        have hpow : 2 ^ (7 * (k + 1) + 1) = 128 * 2 ^ (7 * k + 1) := by
          rw [show 7 * (k + 1) + 1 = 7 + (7 * k + 1) by omega, Nat.pow_add]
        omega
      rw [List.cons_append, Varint.decodeIn, if_neg (by omega), ih (by rw [List.length_cons] at hlength; omega) hroom]
      rfl

theorem Spells.decode (h : Spells b n) (rest : Bytes) : decode (b ++ rest) = some (n, rest) :=
  h.writes.decodeIn h.length_le h.lt rest

theorem exists_writes_of_decodeIn {k : Nat} {rest : Bytes} (h : decodeIn (k + 1) b = some (n, rest)) :
    ∃ own, b = own ++ rest ∧ Writes n own ∧ own.length ≤ k + 1 ∧ n < 2 ^ (7 * k + 1) := by
  induction k generalizing b n with
  | zero =>
      cases b with
      | nil => cases h
      | cons b r =>
          rw [Varint.decodeIn] at h
          split at h
          · rename_i hlast
            split at h
            · cases h
            · rename_i hbit
              cases h
              have hle : b.toNat ≤ 1 := Nat.not_lt.1 fun hb => hbit ⟨rfl, hb⟩
              exact ⟨[b], rfl, .last hlast, Nat.le_refl 1, by omega⟩
          · cases h
  | succ k ih =>
      cases b with
      | nil => cases h
      | cons b r =>
          rw [Varint.decodeIn] at h
          split at h
          · rename_i hlast
            rw [if_neg (by simp)] at h
            cases h
            have hpow : 2 ^ 7 ≤ 2 ^ (7 * (k + 1) + 1) := Nat.pow_le_pow_right (by decide) (by omega)
            exact ⟨[b], rfl, .last hlast, by simp, by omega⟩
          · rename_i hmore
            obtain ⟨⟨m, rest'⟩, hrest, heq⟩ := Option.bind_eq_some_iff.1 h
            cases heq
            obtain ⟨own, rfl, hwrites, hlength, hm⟩ := ih hrest
            have hb := b.toNat_lt
            have hpow : 2 ^ (7 * (k + 1) + 1) = 128 * 2 ^ (7 * k + 1) := by
              rw [show 7 * (k + 1) + 1 = 7 + (7 * k + 1) by omega, Nat.pow_add]
            refine ⟨b :: own, rfl, .more (by omega) hwrites, ?_, by omega⟩
            rw [List.length_cons]
            omega

/-- What is read as a number is one of the ways to write it. -/
theorem exists_spells_of_decode {rest : Bytes} (h : decode b = some (n, rest)) :
    ∃ own, b = own ++ rest ∧ Spells own n := by
  obtain ⟨own, hb, hwrites, hlength, hn⟩ := exists_writes_of_decodeIn h
  exact ⟨own, hb, hwrites, hlength, hn⟩

end AgentMesh.Wire.Varint
