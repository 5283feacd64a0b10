import AgentMesh.Proofs.Text.Utf8
import AgentMesh.Proofs.Wire.Records
import AgentMesh.Wire.Message

/-!
# Messages that are read back

A message is read back from its encoding if each of its fields is: what the field writes are well-formed records, and
reading them on top of the fields before it adds the value of the field. This is shown for each kind of field and put
together along the list of fields.
-/

namespace AgentMesh.Wire

/-- A length that fits into 64 bits, as every length in memory does. -/
def Fits (b : Bytes) : Prop :=
  b.length < 2 ^ 64

instance (b : Bytes) : Decidable (Fits b) :=
  inferInstanceAs (Decidable (b.length < 2 ^ 64))

theorem Fits.of_append {b b' : Bytes} (h : Fits (b ++ b')) : Fits b ∧ Fits b' := by
  rw [Fits, List.length_append] at h
  exact ⟨by rw [Fits]; omega, by rw [Fits]; omega⟩

theorem Fits.of_mem_flatMap {β : Type} {put : β → Bytes} {vs : List β} (h : Fits (vs.flatMap put)) {v : β}
    (hv : v ∈ vs) : Fits (put v) := by
  obtain ⟨before, after, rfl⟩ := List.append_of_mem hv
  rw [List.flatMap_append, List.flatMap_cons] at h
  exact h.of_append.2.of_append.1

/-! ## Plain values -/

/-- Values are read back from their payloads, and the value that is left out is known. -/
class Scalar.Faithful {α : Type} (s : Scalar α) where
  zero : α
  /-- The value is told apart from the one that is left out. -/
  Exact : α → Prop
  eq_zero : ∀ {a : α}, s.isDefault a = true → Exact a → a = zero
  exists_payload : ∀ a, Fits (s.put a) → ∃ p, PayloadOf s.type p (s.put a) ∧ s.take p = some a

theorem twosComplement_lt (i : Int) : twosComplement i < 2 ^ 64 := by
  rw [twosComplement]
  omega

theorem payloadOf_varint {n : Nat} (h : n < 2 ^ 64) : PayloadOf .varint (.varint n) (Varint.encode n) :=
  .varint (Varint.spells_encode h)

theorem payloadOf_withLength {b : Bytes} (h : Fits b) : PayloadOf .delimited (.delimited b) (withLength b) :=
  .delimited (Varint.spells_encode h)

theorem int32_ofNat_twosComplement (i : Int32) : Int32.ofNat (twosComplement i.toInt) = i := by
  have hlow := i.le_toInt
  have hhigh := i.toInt_lt
  have hsize : (Int32.size : Int) = 2 ^ 32 := rfl
  apply Int32.toInt_inj.mp
  rw [Int32.toInt_ofNat', twosComplement, Int.toNat_of_nonneg (by omega), Int.bmod_def, hsize]
  omega

theorem int64_ofNat_twosComplement (i : Int64) : Int64.ofNat (twosComplement i.toInt) = i := by
  have hlow := i.le_toInt
  have hhigh := i.toInt_lt
  have hsize : (Int64.size : Int) = 2 ^ 64 := rfl
  apply Int64.toInt_inj.mp
  rw [Int64.toInt_ofNat', twosComplement, Int.toNat_of_nonneg (by omega), Int.bmod_def, hsize]
  omega

theorem ofLittleEndian_littleEndian (n : UInt32) : ofLittleEndian (littleEndian n) = n.toNat := by
  have := n.toNat_lt
  simp only [littleEndian, ofLittleEndian, UInt8.toNat_ofNat']
  omega

instance : Scalar.int32.Faithful where
  zero := 0
  Exact _ := True
  eq_zero h _ := eq_of_beq h
  exists_payload i _ :=
    ⟨.varint (twosComplement i.toInt), payloadOf_varint (twosComplement_lt _),
      congrArg some (int32_ofNat_twosComplement i)⟩

instance : Scalar.int64.Faithful where
  zero := 0
  Exact _ := True
  eq_zero h _ := eq_of_beq h
  exists_payload i _ :=
    ⟨.varint (twosComplement i.toInt), payloadOf_varint (twosComplement_lt _),
      congrArg some (int64_ofNat_twosComplement i)⟩

instance : Scalar.bool.Faithful where
  zero := false
  Exact _ := True
  eq_zero h _ := by simpa [Scalar.bool] using h
  exists_payload b _ := ⟨.varint b.toNat, payloadOf_varint (by cases b <;> decide), by cases b <;> rfl⟩

instance : Scalar.string.Faithful where
  zero := ""
  Exact _ := True
  eq_zero h _ := by simpa [Scalar.string] using h
  exists_payload s h :=
    ⟨.delimited s.toUTF8.toList, payloadOf_withLength h.of_append.2, Text.fromUTF8?_toList s⟩

/-- The zero with a sign. -/
def Single.negativeZero : Single := ⟨0x80000000⟩

theorem Single.eq_of_isZero {x : Single} (h : x.isZero = true) (hx : x ≠ negativeZero) : x = {} := by
  obtain ⟨bits⟩ := x
  have hbits : bits ≠ 0x80000000 := fun hbits => hx (congrArg Single.mk hbits)
  simpa [isZero, hbits] using h

instance : Scalar.single.Faithful where
  zero := {}
  Exact x := x ≠ .negativeZero
  eq_zero h hx := Single.eq_of_isZero h hx
  exists_payload x _ := by
    refine ⟨.fixed32 (littleEndian x.bits), .fixed32 rfl, congrArg some ?_⟩
    rw [ofLittleEndian_littleEndian, UInt32.ofNat_toNat]

/-! ## Messages -/

/-- Messages are read back from their encodings, given so many levels of submessages. -/
class Message.Faithful (M : Type) [Message M] where
  height : Nat
  /-- The message holds no value that is mistaken for one that is left out. -/
  Exact : M → Prop
  mergeBytes_encode : ∀ m, Exact m → Fits (encode m) → ∀ depth, height ≤ depth →
    mergeBytes depth (encode m) empty = some m

namespace Field

variable {M : Type} {f : Field M} {m acc acc' : M} {height : Nat}

/-- What a field writes are well-formed records, and reading them turns one message into another. -/
structure Turns (f : Field M) (m : M) (height : Nat) (acc acc' : M) (ps : List Payload) : Prop where
  spelled : Spelled 1 (ps.map (⟨f.number, ·⟩)) (f.encode m)
  reads : ∀ depth, height ≤ depth → ps.foldlM (fun acc p => f.merge depth p acc) acc = some acc'

theorem spelled_singleton {number : Nat} {type : WireType} {p : Payload} {b : Bytes} (hpos : 0 < number)
    (hlt : number < 2 ^ 29) (h : PayloadOf type p b) : Spelled 1 [⟨number, p⟩] (encodeKey number type ++ b) := by
  have hspelled := Spelled.plain (keyOf_encodeKey hpos hlt type) h (.nil : Spelled 1 [] [])
  rwa [List.append_nil] at hspelled

theorem encode_scalar {α : Type} {s : Scalar α} {number : Nat} {name : String} {get : M → α} {set : α → M → M} :
    (scalar s number name get set).encode m =
      if s.isDefault (get m) then [] else encodeKey number s.type ++ s.put (get m) := rfl

theorem exists_turns_scalar {α : Type} {s : Scalar α} [s.Faithful] {number : Nat} {name : String} {get : M → α}
    {set : α → M → M} (hpos : 0 < number) (hlt : number < 2 ^ 29)
    (hfits : Fits ((scalar s number name get set).encode m)) (hblank : set (Scalar.Faithful.zero s) acc = acc)
    (hexact : Scalar.Faithful.Exact s (get m)) :
    ∃ ps, (scalar s number name get set).Turns m height acc (set (get m) acc) ps := by
  by_cases hdefault : s.isDefault (get m) = true
  · refine ⟨[], ?_, fun depth _ => ?_⟩
    · rw [encode_scalar, if_pos hdefault]
      exact .nil
    · rw [Scalar.Faithful.eq_zero hdefault hexact, hblank]
      rfl
  · rw [encode_scalar, if_neg hdefault] at hfits
    obtain ⟨p, hp, htake⟩ := Scalar.Faithful.exists_payload (get m) hfits.of_append.2
    refine ⟨[p], ?_, fun depth _ => ?_⟩
    · rw [encode_scalar, if_neg hdefault]
      exact spelled_singleton hpos hlt hp
    · simp only [scalar, List.foldlM_cons, List.foldlM_nil, htake, Option.map_some]
      rfl

/-- A list is collected from payloads of its values, one by one. -/
theorem exists_collected {β : Type} {type : WireType} {number : Nat} {get : M → List β} {set : List β → M → M}
    (height : Nat) (put : β → Bytes) (take : Nat → Payload → Option β) (hpos : 0 < number)
    (hlt : number < 2 ^ 29) (hget : ∀ l, get (set l acc) = l) (hset : ∀ l l', set l' (set l acc) = set l' acc)
    (vs : List β) (h : ∀ v ∈ vs, ∃ p, PayloadOf type p (put v) ∧ ∀ depth, height ≤ depth → take depth p = some v) :
    ∃ ps : List Payload, Spelled 1 (ps.map (⟨number, ·⟩)) (vs.flatMap fun v => encodeKey number type ++ put v) ∧
      ∀ depth, height ≤ depth → ∀ before,
        ps.foldlM (fun acc p => (take depth p).map fun v => set (get acc ++ [v]) acc) (set before acc) =
          some (set (before ++ vs) acc) := by
  induction vs with
  | nil => exact ⟨[], .nil, fun depth _ before => by rw [List.append_nil]; rfl⟩
  | cons v vs ih =>
      obtain ⟨p, hp, htake⟩ := h v List.mem_cons_self
      obtain ⟨ps, hps, hread⟩ := ih fun w hw => h w (List.mem_cons_of_mem _ hw)
      refine ⟨p :: ps, ?_, fun depth hdepth before => ?_⟩
      · rw [List.flatMap_cons]
        exact (spelled_singleton hpos hlt hp).append hps
      · rw [List.foldlM_cons, htake depth hdepth, Option.map_some, hget, hset]
        have hrest := hread depth hdepth (before ++ [v])
        rwa [List.append_assoc] at hrest

theorem exists_turns_scalars {α : Type} {s : Scalar α} [s.Faithful] {number : Nat} {name : String}
    {get : M → List α} {set : List α → M → M} (hpos : 0 < number) (hlt : number < 2 ^ 29)
    (hfits : Fits ((scalars s number name get set).encode m)) (hblank : set [] acc = acc)
    (hget : ∀ l, get (set l acc) = l) (hset : ∀ l l', set l' (set l acc) = set l' acc) :
    ∃ ps, (scalars s number name get set).Turns m height acc (set (get m) acc) ps := by
  obtain ⟨ps, hspelled, hreads⟩ := exists_collected height s.put (fun _ => s.take) hpos hlt hget hset
    (get m) fun v hv => by
      obtain ⟨p, hp, htake⟩ := Scalar.Faithful.exists_payload v (Fits.of_mem_flatMap hfits hv).of_append.2
      exact ⟨p, hp, fun _ _ => htake⟩
  refine ⟨ps, hspelled, fun depth hdepth => ?_⟩
  have hread := hreads depth hdepth []
  rwa [hblank] at hread

theorem exists_turns_message {N : Type} [Message N] [Message.Faithful N] {number : Nat} {name : String}
    {get : M → Option N} {set : Option N → M → M} (hpos : 0 < number) (hlt : number < 2 ^ 29)
    (hfits : Fits ((message number name get set).encode m)) (hheight : Message.Faithful.height N < height)
    (hblank : set none acc = acc) (hnone : get acc = none)
    (hexact : ∀ n, get m = some n → Message.Faithful.Exact n) :
    ∃ ps, (message number name get set).Turns m height acc (set (get m) acc) ps := by
  cases hn : get m with
  | none =>
      refine ⟨[], ?_, fun depth _ => ?_⟩
      · simp only [message, hn]
        exact .nil
      · rw [hblank]
        rfl
  | some n =>
      simp only [message, hn] at hfits
      have hn' := hfits.of_append.2.of_append.2
      refine ⟨[.delimited (Message.encode n)], ?_, fun depth hdepth => ?_⟩
      · simp only [message, hn]
        exact spelled_singleton hpos hlt (payloadOf_withLength hn')
      · simp only [message, List.foldlM_cons, List.foldlM_nil, hnone, Option.getD_none, mergeSub]
        rw [if_neg (by omega), Message.Faithful.mergeBytes_encode n (hexact n hn) hn' (depth - 1) (by omega)]
        rfl

theorem exists_turns_messages {N : Type} [Message N] [Message.Faithful N] {number : Nat} {name : String}
    {get : M → List N} {set : List N → M → M} (hpos : 0 < number) (hlt : number < 2 ^ 29)
    (hfits : Fits ((messages number name get set).encode m)) (hheight : Message.Faithful.height N < height)
    (hblank : set [] acc = acc) (hget : ∀ l, get (set l acc) = l) (hset : ∀ l l', set l' (set l acc) = set l' acc)
    (hexact : ∀ n ∈ get m, Message.Faithful.Exact n) :
    ∃ ps, (messages number name get set).Turns m height acc (set (get m) acc) ps := by
  obtain ⟨ps, hspelled, hreads⟩ := exists_collected height (fun n => withLength (Message.encode n))
    (fun depth p => mergeSub depth p Message.empty) hpos hlt hget hset (get m) fun n hn => by
      have hn' := (Fits.of_mem_flatMap hfits hn).of_append.2.of_append.2
      refine ⟨.delimited (Message.encode n), payloadOf_withLength hn', fun depth hdepth => ?_⟩
      rw [mergeSub, if_neg (by omega)]
      exact Message.Faithful.mergeBytes_encode n (hexact n hn) hn' (depth - 1) (by omega)
  refine ⟨ps, hspelled, fun depth hdepth => ?_⟩
  have hread := hreads depth hdepth []
  rwa [hblank] at hread

end Field

/-! ## Lists of fields -/

section Fields

variable {M : Type}

/--
Reading what the fields write of a message on top of another message, in which they are not read yet, completes it to
the first.
-/
inductive Completes (m : M) (height : Nat) : List (Field M) → M → Prop
  | done : Completes m height [] m
  | scalar {α : Type} {s : Scalar α} [s.Faithful] {number : Nat} {name : String} {get : M → α} {set : α → M → M}
      {fs : List (Field M)} {acc : M} (hrest : Completes m height fs (set (get m) acc))
      (hexact : Scalar.Faithful.Exact s (get m) := by trivial)
      (hblank : set (Scalar.Faithful.zero s) acc = acc := by rfl) :
      Completes m height (.scalar s number name get set :: fs) acc
  | scalars {α : Type} {s : Scalar α} [s.Faithful] {number : Nat} {name : String} {get : M → List α}
      {set : List α → M → M} {fs : List (Field M)} {acc : M} (hrest : Completes m height fs (set (get m) acc))
      (hblank : set [] acc = acc := by rfl) (hget : ∀ l, get (set l acc) = l := by intros; rfl)
      (hset : ∀ l l', set l' (set l acc) = set l' acc := by intros; rfl) :
      Completes m height (.scalars s number name get set :: fs) acc
  | message {N : Type} [Message N] [Message.Faithful N] {number : Nat} {name : String} {get : M → Option N}
      {set : Option N → M → M} {fs : List (Field M)} {acc : M} (hrest : Completes m height fs (set (get m) acc))
      (hexact : ∀ n, get m = some n → Message.Faithful.Exact n := by intros; trivial)
      (hheight : Message.Faithful.height N < height := by decide) (hblank : set none acc = acc := by rfl)
      (hnone : get acc = none := by rfl) :
      Completes m height (.message number name get set :: fs) acc
  | messages {N : Type} [Message N] [Message.Faithful N] {number : Nat} {name : String} {get : M → List N}
      {set : List N → M → M} {fs : List (Field M)} {acc : M} (hrest : Completes m height fs (set (get m) acc))
      (hexact : ∀ n ∈ get m, Message.Faithful.Exact n := by intros; trivial)
      (hheight : Message.Faithful.height N < height := by decide) (hblank : set [] acc = acc := by rfl)
      (hget : ∀ l, get (set l acc) = l := by intros; rfl)
      (hset : ∀ l l', set l' (set l acc) = set l' acc := by intros; rfl) :
      Completes m height (.messages number name get set :: fs) acc

/-- The numbers of fields that keys can hold. -/
def NumbersInRange (fs : List (Field M)) : Prop :=
  ∀ n ∈ fs.map (·.number), 0 < n ∧ n < 2 ^ 29

instance (fs : List (Field M)) : Decidable (NumbersInRange fs) :=
  inferInstanceAs (Decidable (∀ n ∈ fs.map (·.number), 0 < n ∧ n < 2 ^ 29))

/-- A field turns one message into another which the others complete. -/
theorem Completes.exists_turns {m acc : M} {height : Nat} {f : Field M} {fs : List (Field M)}
    (h : Completes m height (f :: fs) acc) (hpos : 0 < f.number) (hlt : f.number < 2 ^ 29)
    (hfits : Fits (f.encode m)) : ∃ acc' ps, f.Turns m height acc acc' ps ∧ Completes m height fs acc' := by
  cases h with
  | scalar hrest hexact hblank =>
      obtain ⟨ps, hps⟩ := Field.exists_turns_scalar hpos hlt hfits hblank hexact
      exact ⟨_, ps, hps, hrest⟩
  | scalars hrest hblank hget hset =>
      obtain ⟨ps, hps⟩ := Field.exists_turns_scalars hpos hlt hfits hblank hget hset
      exact ⟨_, ps, hps, hrest⟩
  | message hrest hexact hheight hblank hnone =>
      obtain ⟨ps, hps⟩ := Field.exists_turns_message hpos hlt hfits hheight hblank hnone hexact
      exact ⟨_, ps, hps, hrest⟩
  | messages hrest hexact hheight hblank hget hset =>
      obtain ⟨ps, hps⟩ := Field.exists_turns_messages hpos hlt hfits hheight hblank hget hset hexact
      exact ⟨_, ps, hps, hrest⟩

theorem find?_number {fs : List (Field M)} (hnodup : (fs.map (·.number)).Nodup) {f : Field M} (hf : f ∈ fs) :
    (fs.find? fun g => g.number == f.number) = some f := by
  induction fs with
  | nil => cases hf
  | cons g fs ih =>
      obtain ⟨hfresh, hnodup⟩ := List.nodup_cons.mp hnodup
      rcases List.mem_cons.mp hf with rfl | hf
      · exact List.find?_cons_of_pos (beq_self_eq_true _)
      · have hne : g.number ≠ f.number := fun heq => hfresh (List.mem_map.mpr ⟨f, hf, heq.symm⟩)
        rw [List.find?_cons_of_neg (by simpa using hne)]
        exact ih hnodup hf

variable [Message M]

/-- The numbers of a message's fields are in range and all different. -/
structure Numbered (M : Type) [Message M] : Prop where
  range : NumbersInRange (Message.fields (M := M))
  nodup : ((Message.fields (M := M)).map (·.number)).Nodup

theorem foldlM_mergeRecord_map {f : Field M} (hfind : (Message.fields.find? fun g => g.number == f.number) = some f)
    (depth : Nat) (ps : List Payload) (acc : M) :
    (ps.map fun p => (⟨f.number, p⟩ : Record)).foldlM (Message.mergeRecord depth) acc =
      ps.foldlM (fun acc p => f.merge depth p acc) acc := by
  rw [List.foldlM_map]
  simp only [Message.mergeRecord, hfind]

/-- Everything that the fields write is a sequence of records, which complete the message when they are read. -/
theorem Completes.exists_records {m acc : M} {height : Nat} {fs : List (Field M)} (h : Completes m height fs acc)
    (hnumbered : Numbered M) (hfs : fs ⊆ Message.fields) (hfits : Fits (fs.flatMap fun f => f.encode m)) :
    ∃ rs, Spelled 1 rs (fs.flatMap fun f => f.encode m) ∧
      ∀ depth, height ≤ depth → rs.foldlM (Message.mergeRecord depth) acc = some m := by
  induction fs generalizing acc with
  | nil =>
      cases h
      exact ⟨[], .nil, fun depth _ => rfl⟩
  | cons f fs ih =>
      rw [List.flatMap_cons] at hfits ⊢
      have hf := hfs List.mem_cons_self
      obtain ⟨hpos, hlt⟩ := hnumbered.range _ (List.mem_map_of_mem hf)
      obtain ⟨acc', ps, hps, hrest⟩ := h.exists_turns hpos hlt hfits.of_append.1
      obtain ⟨rs, hrs, hreads⟩ := ih hrest (fun g hg => hfs (List.mem_cons_of_mem _ hg)) hfits.of_append.2
      refine ⟨_, hps.spelled.append hrs, fun depth hdepth => ?_⟩
      rw [List.foldlM_append, foldlM_mergeRecord_map (find?_number hnumbered.nodup hf), hps.reads depth hdepth]
      exact hreads depth hdepth

/-- Records that no field takes change nothing. -/
theorem foldlM_mergeRecord_of_unknown {rs : List Record}
    (h : ∀ r ∈ rs, ∀ f ∈ Message.fields (M := M), f.number ≠ r.number) (depth : Nat) (m : M) :
    rs.foldlM (Message.mergeRecord depth) m = some m := by
  induction rs with
  | nil => rfl
  | cons r rs ih =>
      have hnone : (Message.fields.find? fun f : Field M => f.number == r.number) = none :=
        List.find?_eq_none.mpr fun f hf => by simpa using h r List.mem_cons_self f hf
      rw [List.foldlM_cons, Message.mergeRecord, hnone]
      exact ih fun s hs => h s (List.mem_cons_of_mem _ hs)

/-- A message that its fields complete is read back, whatever records follow it that no field takes. -/
theorem Completes.mergeBytes_append {m : M} {height depth : Nat}
    (h : Completes m height Message.fields Message.empty) (hnumbered : Numbered M) (hfits : Fits (Message.encode m))
    (hpos : 0 < height) (hdepth : height ≤ depth) {rs : List Record} {rest : Bytes} (hrest : Spelled depth rs rest)
    (hunknown : ∀ r ∈ rs, ∀ f ∈ Message.fields (M := M), f.number ≠ r.number) :
    Message.mergeBytes depth (Message.encode m ++ rest) Message.empty = some m := by
  obtain ⟨own, hown, hreads⟩ := h.exists_records hnumbered (List.Subset.refl _) hfits
  have hown' : Spelled depth own (Message.encode m) := hown.mono (by omega)
  rw [Message.mergeBytes, (hown'.append hrest).decodeRecords (Nat.le_refl depth)]
  show (own ++ rs).foldlM (Message.mergeRecord depth) Message.empty = some m
  rw [List.foldlM_append, hreads depth hdepth]
  exact foldlM_mergeRecord_of_unknown hunknown depth m

/-- Nothing is read if what follows the message is no well-formed sequence, or has more levels than are read. -/
theorem Completes.mergeBytes_append_eq_none {m : M} {height depth : Nat}
    (h : Completes m height Message.fields Message.empty) (hnumbered : Numbered M) (hfits : Fits (Message.encode m))
    (hpos : 0 < height) (hdepth : height ≤ depth) {rest : Bytes} (hrest : ∀ rs, ¬Spelled depth rs rest) :
    Message.mergeBytes (M := M) depth (Message.encode m ++ rest) Message.empty = none := by
  obtain ⟨own, hown, -⟩ := h.exists_records hnumbered (List.Subset.refl _) hfits
  have hown' : Spelled depth own (Message.encode m) := hown.mono (by omega)
  have hnone : decodeRecords depth (Message.encode m ++ rest) = none := by
    by_contra hsome
    obtain ⟨rs, hrs⟩ := Option.ne_none_iff_exists'.1 hsome
    obtain ⟨after, hafter⟩ := exists_spelled_of_decodeRecords_append (by omega) hown' hrs
    exact hrest after hafter
  rw [Message.mergeBytes, hnone]
  rfl

/-- A type of messages that their fields complete. -/
class Message.Complete (M : Type) [Message M] where
  height : Nat
  Exact : M → Prop := fun _ => True
  completes : ∀ m : M, Exact m → Completes m height Message.fields Message.empty
  pos : 0 < height := by decide
  numbered : Numbered M := by exact ⟨by decide, by decide⟩

instance [Message.Complete M] : Message.Faithful M where
  height := Message.Complete.height M
  Exact := Message.Complete.Exact
  mergeBytes_encode m hexact hfits depth hdepth := by
    have hread := (Message.Complete.completes m hexact).mergeBytes_append Message.Complete.numbered hfits
      Message.Complete.pos hdepth (.nil : Spelled depth [] []) nofun
    rwa [List.append_nil] at hread

end Fields

end AgentMesh.Wire
