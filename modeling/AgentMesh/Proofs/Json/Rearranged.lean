import AgentMesh.Json.Decode
import Mathlib.Algebra.Order.Ring.Int
import Mathlib.Data.List.Forall2
import Mathlib.Data.List.Nodup
import Mathlib.Data.List.Perm.Basic
import Mathlib.Data.Option.Basic

/-!
# Documents that say the same

The members of an object may stand in any order, and scalar members of other names may join them. A record is read from
its document in all these forms.
-/

namespace AgentMesh.Json

/-- Neither an array nor an object. -/
def IsScalar : Json → Prop
  | .array _ => False
  | .object _ => False
  | _ => True

/-! ## Rearranging -/

mutual

/-- The second document is the first with the members of its objects rearranged and with scalar members added. -/
inductive Rearranged : Json → Json → Prop
  | scalar {v : Json} (h : v.IsScalar) : Rearranged v v
  | array {vs ws : List Json} (h : RearrangedItems vs ws) : Rearranged (.array vs) (.array ws)
  | object {ms ns extras os : List (Option String × Json)} (h : RearrangedMembers ms ns)
      (hscalar : ∀ e ∈ extras, e.2.IsScalar) (hnew : ∀ e ∈ extras, ∀ m ∈ ms, e.1 ≠ m.1)
      (hperm : os.Perm (ns ++ extras)) : Rearranged (.object ms) (.object os)

inductive RearrangedItems : List Json → List Json → Prop
  | nil : RearrangedItems [] []
  | cons {v w : Json} {vs ws : List Json} (h : Rearranged v w) (hs : RearrangedItems vs ws) :
      RearrangedItems (v :: vs) (w :: ws)

inductive RearrangedMembers : List (Option String × Json) → List (Option String × Json) → Prop
  | nil : RearrangedMembers [] []
  | cons {k : Option String} {v w : Json} {ms ns : List (Option String × Json)} (h : Rearranged v w)
      (hs : RearrangedMembers ms ns) : RearrangedMembers ((k, v) :: ms) ((k, w) :: ns)

end

mutual

theorem Rearranged.refl : ∀ v : Json, Rearranged v v
  | .null | .bool _ | .number _ | .string _ => .scalar trivial
  | .array vs => .array (RearrangedItems.refl vs)
  | .object ms => @Rearranged.object ms ms [] ms (RearrangedMembers.refl ms) nofun nofun (by simp)

theorem RearrangedItems.refl : ∀ vs : List Json, RearrangedItems vs vs
  | [] => .nil
  | v :: vs => .cons (Rearranged.refl v) (RearrangedItems.refl vs)

theorem RearrangedMembers.refl : ∀ ms : List (Option String × Json), RearrangedMembers ms ms
  | [] => .nil
  | (_, v) :: ms => .cons (Rearranged.refl v) (RearrangedMembers.refl ms)

end

theorem Rearranged.eq_of_isScalar {v w : Json} (h : Rearranged v w) (hv : v.IsScalar) : w = v := by
  cases h with
  | scalar => rfl
  | array h => exact absurd hv id
  | object h => exact absurd hv id

theorem RearrangedMembers.exists_of_mem {ms ns : List (Option String × Json)} (h : RearrangedMembers ms ns)
    {k : Option String} {v : Json} (hm : (k, v) ∈ ms) : ∃ w, (k, w) ∈ ns ∧ Rearranged v w := by
  induction ms generalizing ns with
  | nil => cases hm
  | cons m ms ih =>
      cases h with
      | cons h hs =>
          rcases List.mem_cons.1 hm with heq | hm
          · cases heq
            exact ⟨_, List.mem_cons_self, h⟩
          · obtain ⟨w, hw, hvw⟩ := ih hs hm
            exact ⟨w, List.mem_cons_of_mem _ hw, hvw⟩

theorem RearrangedMembers.map_fst {ms ns : List (Option String × Json)} (h : RearrangedMembers ms ns) :
    ns.map Prod.fst = ms.map Prod.fst := by
  induction ms generalizing ns with
  | nil =>
      cases h
      rfl
  | cons m ms ih =>
      cases h with
      | cons h hs => simp [ih hs]

/-! ## What a rearranged document keeps -/

theorem depthItems_le_iff {vs : List Json} {n : Nat} : depthItems vs ≤ n ↔ ∀ v ∈ vs, v.depth ≤ n := by
  induction vs with
  | nil => simp [depthItems]
  | cons v vs ih => simp [depthItems, ih]

theorem depthMembers_le_iff {ms : List (Option String × Json)} {n : Nat} :
    depthMembers ms ≤ n ↔ ∀ m ∈ ms, m.2.depth ≤ n := by
  induction ms with
  | nil => simp [depthMembers]
  | cons m ms ih => simp [depthMembers, ih]

theorem IsScalar.depth_eq {v : Json} (h : v.IsScalar) : v.depth = 0 := by
  cases v with
  | array items => exact absurd h id
  | object members => exact absurd h id
  | _ => rw [depth] <;> simp

mutual

theorem Rearranged.depth_le : ∀ {v w : Json}, Rearranged v w → ∀ n, v.depth ≤ n → w.depth ≤ n
  | _, _, .scalar _, _, hn => hn
  | _, _, .array h, n, hn => by
      rw [depth] at hn ⊢
      have hws := h.depth_le (n - 1) (by omega)
      omega
  | _, _, .object h hscalar _ hperm, n, hn => by
      rw [depth] at hn ⊢
      have hns := h.depth_le (n - 1) (by omega)
      have hos : depthMembers _ ≤ n - 1 := depthMembers_le_iff.2 fun m hm => by
        rcases List.mem_append.1 (hperm.mem_iff.1 hm) with hm | hm
        · exact depthMembers_le_iff.1 hns m hm
        · exact (hscalar m hm).depth_eq ▸ Nat.zero_le _
      omega

theorem RearrangedItems.depth_le : ∀ {vs ws : List Json}, RearrangedItems vs ws → ∀ n,
    depthItems vs ≤ n → depthItems ws ≤ n
  | _, _, .nil, _, hn => hn
  | _, _, .cons h hs, n, hn => by
      rw [depthItems, Nat.max_le] at hn ⊢
      exact ⟨h.depth_le n hn.1, hs.depth_le n hn.2⟩

theorem RearrangedMembers.depth_le : ∀ {ms ns : List (Option String × Json)}, RearrangedMembers ms ns → ∀ n,
    depthMembers ms ≤ n → depthMembers ns ≤ n
  | _, _, .nil, _, hn => hn
  | _, _, .cons h hs, n, hn => by
      rw [depthMembers, Nat.max_le] at hn ⊢
      exact ⟨h.depth_le n hn.1, hs.depth_le n hn.2⟩

end

/-- No object in the document is empty. -/
def IsFull (v : Json) : Prop :=
  v.emptyAsNull = v

theorem emptyAsNullMembers_eq_iff {ms : List (Option String × Json)} :
    emptyAsNullMembers ms = ms ↔ ∀ m ∈ ms, m.2.IsFull := by
  induction ms with
  | nil => simp [emptyAsNullMembers]
  | cons m ms ih =>
      obtain ⟨k, v⟩ := m
      simp [emptyAsNullMembers, ih, IsFull]

theorem emptyAsNullItems_eq_iff {vs : List Json} : emptyAsNullItems vs = vs ↔ ∀ v ∈ vs, v.IsFull := by
  induction vs with
  | nil => simp [emptyAsNullItems]
  | cons v vs ih => simp [emptyAsNullItems, ih, IsFull]

theorem isFull_array_iff {vs : List Json} : (array vs).IsFull ↔ emptyAsNullItems vs = vs := by
  simp [IsFull, emptyAsNull]

theorem isFull_object_iff {ms : List (Option String × Json)} :
    (object ms).IsFull ↔ ms ≠ [] ∧ emptyAsNullMembers ms = ms := by
  cases ms <;> simp [IsFull, emptyAsNull]

theorem IsScalar.isFull {v : Json} (h : v.IsScalar) : v.IsFull := by
  cases v with
  | array items => exact absurd h id
  | object members => exact absurd h id
  | _ => simp [IsFull, emptyAsNull]

mutual

theorem Rearranged.isFull : ∀ {v w : Json}, Rearranged v w → v.IsFull → w.IsFull
  | _, _, .scalar _, hv => hv
  | _, _, .array h, hv => isFull_array_iff.2 (h.isFull (isFull_array_iff.1 hv))
  | _, _, .object h hscalar _ hperm, hv => by
      obtain ⟨hne, hms⟩ := isFull_object_iff.1 hv
      have hns := h.isFull hms
      refine isFull_object_iff.2 ⟨?_, emptyAsNullMembers_eq_iff.2 fun m hm => ?_⟩
      · rintro rfl
        obtain ⟨hnil, -⟩ := List.append_eq_nil_iff.1 hperm.nil_eq.symm
        cases h with
        | nil => exact hne rfl
        | cons => cases hnil
      · rcases List.mem_append.1 (hperm.mem_iff.1 hm) with hm | hm
        · exact emptyAsNullMembers_eq_iff.1 hns m hm
        · exact (hscalar m hm).isFull

theorem RearrangedItems.isFull : ∀ {vs ws : List Json}, RearrangedItems vs ws → emptyAsNullItems vs = vs →
    emptyAsNullItems ws = ws
  | _, _, .nil, hvs => hvs
  | _, _, .cons h hs, hvs => by
      obtain ⟨hv, hvs⟩ := List.cons.inj hvs
      exact congrArg₂ List.cons (h.isFull hv) (hs.isFull hvs)

theorem RearrangedMembers.isFull : ∀ {ms ns : List (Option String × Json)}, RearrangedMembers ms ns →
    emptyAsNullMembers ms = ms → emptyAsNullMembers ns = ns
  | _, _, .nil, hms => hms
  | _, _, .cons h hs, hms => by
      obtain ⟨hm, hms⟩ := List.cons.inj hms
      exact congrArg₂ List.cons (congrArg _ (h.isFull (Prod.mk.inj hm).2)) (hs.isFull hms)

end

/-! ## Records -/

section Records

variable {p : Number → Bool}

theorem wellFormedMembers_iff {ms : List (Option String × Json)} :
    wellFormedMembers p ms = true ↔ ∀ m ∈ ms, m.1.isSome = true ∧ m.2.wellFormed p = true := by
  induction ms with
  | nil => simp [wellFormedMembers]
  | cons m ms ih =>
      obtain ⟨k, v⟩ := m
      simp only [wellFormedMembers, Bool.and_eq_true, ih, List.forall_mem_cons]

theorem wellFormedItems_iff {vs : List Json} : wellFormedItems p vs = true ↔ ∀ v ∈ vs, v.wellFormed p = true := by
  induction vs with
  | nil => simp [wellFormedItems]
  | cons v vs ih => simp only [wellFormedItems, Bool.and_eq_true, ih, List.forall_mem_cons]

theorem filter_of_mem {ns : List (Option String × Json)} (hnodup : (ns.map Prod.fst).Nodup) {k : Option String}
    {w : Json} (hm : (k, w) ∈ ns) : (ns.filter fun m => m.1 == k) = [(k, w)] := by
  induction ns with
  | nil => cases hm
  | cons n ns ih =>
      obtain ⟨hnew, hnodup⟩ := List.nodup_cons.1 hnodup
      rcases List.mem_cons.1 hm with rfl | hm
      · have hrest : (ns.filter fun m => m.1 == k) = [] := by
          refine List.filter_eq_nil_iff.2 fun m hmem heq => hnew ?_
          exact List.mem_map.2 ⟨m, hmem, by simpa using heq⟩
        simp [hrest]
      · have hne : n.1 ≠ k := by
          rintro rfl
          exact hnew (List.mem_map.2 ⟨_, hm, rfl⟩)
        simp [hne, ih hnodup hm]

/-- Each of the fields is a member, once, though its value may be rearranged. -/
def Holds (ms : List (Option String × Json)) (fs : List (String × Json)) : Prop :=
  ∀ f ∈ fs, ∃ w, (ms.filter fun m => m.1 == some f.1) = [(some f.1, w)] ∧ Rearranged f.2 w

theorem Rearranged.exists_members {fs : List (String × Json)} {d : Json} (h : Rearranged (record fs) d)
    (hnodup : (fs.map Prod.fst).Nodup) : ∃ ms, d = .object ms ∧ Holds ms fs := by
  have hnames : ((fs.map fun f => (some f.1, f.2)).map Prod.fst).Nodup := by
    have hmap : (fs.map fun f => (some f.1, f.2)).map Prod.fst = (fs.map Prod.fst).map some := by simp
    rw [hmap]
    exact hnodup.map (Option.some_injective _)
  generalize hd : record fs = v at h
  cases h with
  | scalar hscalar =>
      rw [← hd] at hscalar
      exact absurd hscalar id
  | array => cases hd
  | @object ms ns extras os hms hscalar hnew hperm =>
      cases hd
      refine ⟨os, rfl, fun f hf => ?_⟩
      have hmem : (some f.1, f.2) ∈ fs.map fun f => (some f.1, f.2) := List.mem_map.2 ⟨f, hf, rfl⟩
      obtain ⟨w, hw, hvw⟩ := hms.exists_of_mem hmem
      have hns := filter_of_mem (hms.map_fst ▸ hnames) hw
      have hextras : (extras.filter fun m => m.1 == some f.1) = [] :=
        List.filter_eq_nil_iff.2 fun e he heq => hnew e he _ hmem (by simpa using heq)
      have hos := hperm.filter fun m => m.1 == some f.1
      rw [List.filter_append, hns, hextras, List.append_nil] at hos
      exact ⟨w, List.perm_singleton.1 hos, hvw⟩

theorem Holds.erase {ms : List (Option String × Json)} {fs : List (String × Json)} (h : Holds ms fs) {k : String}
    (hk : ∀ f ∈ fs, f.1 ≠ k) : Holds (ms.filter fun m => m.1 != some k) fs := by
  intro f hf
  obtain ⟨w, hw, hvw⟩ := h f hf
  refine ⟨w, ?_, hvw⟩
  rw [List.filter_filter, ← hw]
  refine List.filter_congr fun m _ => ?_
  by_cases hm : m.1 = some f.1
  · simp [hm, hk f hf]
  · simp [hm]

theorem Holds.mapM_member? {ms : List (Option String × Json)} (hms : wellFormedMembers p ms = true)
    {fs : List (String × Json)} (h : Holds ms fs) :
    ∃ ws : List Json, (fs.map Prod.fst).mapM (member? ms) = some (ws.map some) ∧
      List.Forall₂ (fun f w => Rearranged f.2 w ∧ w.wellFormed p = true) fs ws := by
  induction fs with
  | nil => exact ⟨[], rfl, .nil⟩
  | cons f fs ih =>
      obtain ⟨w, hw, hvw⟩ := h f List.mem_cons_self
      obtain ⟨ws, hws, hrest⟩ := ih fun g hg => h g (List.mem_cons_of_mem f hg)
      have hmem : (some f.1, w) ∈ ms := List.mem_of_mem_filter (hw ▸ List.mem_cons_self)
      have hmember : member? ms f.1 = some (some w) := by rw [member?, hw]
      refine ⟨w :: ws, ?_, .cons ⟨hvw, (wellFormedMembers_iff.1 hms _ hmem).2⟩ hrest⟩
      simp [hmember, hws]

/-- The fields of a record are found in the object, each in its place, rearranged as the object is. -/
theorem Holds.fields {ms : List (Option String × Json)} (hms : wellFormedMembers p ms = true)
    {fs : List (String × Json)} (h : Holds ms fs) :
    ∃ ws, Json.fields (fs.map Prod.fst) (.object ms) = some ws ∧
      List.Forall₂ (fun f w => Rearranged f.2 w ∧ w.wellFormed p = true) fs ws := by
  obtain ⟨ws, hws, hfields⟩ := h.mapM_member? hms
  refine ⟨ws, ?_, hfields⟩
  have hnames : (ms.all fun m => m.1.isSome) = true :=
    List.all_eq_true.2 fun m hm => (wellFormedMembers_iff.1 hms m hm).1
  have hsome : ws.mapM some = some ws := by simpa using List.mapM_pure (m := Option) (l := ws) (f := id)
  simp [Json.fields, givenFields, hnames, hws, hsome]

theorem Rearranged.fields {fs : List (String × Json)} {d : Json} (h : Rearranged (record fs) d)
    (hnodup : (fs.map Prod.fst).Nodup) (hd : d.wellFormed p = true) :
    ∃ ws, Json.fields (fs.map Prod.fst) d = some ws ∧
      List.Forall₂ (fun f w => Rearranged f.2 w ∧ w.wellFormed p = true) fs ws := by
  obtain ⟨ms, rfl, hms⟩ := h.exists_members hnodup
  exact hms.fields hd

/-! ## Values -/

theorem RearrangedItems.mapM {α : Type} {item : Json → Option α} {toJson : α → Json} {as : List α} {ws : List Json}
    (h : RearrangedItems (as.map toJson) ws) (hws : wellFormedItems p ws = true)
    (hitem : ∀ a ∈ as, ∀ w, Rearranged (toJson a) w → w.wellFormed p = true → item w = some a) :
    ws.mapM item = some as := by
  induction as generalizing ws with
  | nil =>
      cases h
      rfl
  | cons a as ih =>
      cases h with
      | cons h hs =>
          obtain ⟨hw, hws⟩ := Bool.and_eq_true_iff.1 hws
          have hrest := ih hs hws fun b hb => hitem b (List.mem_cons_of_mem a hb)
          simp [hitem a List.mem_cons_self _ h hw, hrest]

theorem Rearranged.asList {α : Type} {item : Json → Option α} {toJson : α → Json} {as : List α} {d : Json}
    (h : Rearranged (.array (as.map toJson)) d) (hd : d.wellFormed p = true)
    (hitem : ∀ a ∈ as, ∀ w, Rearranged (toJson a) w → w.wellFormed p = true → item w = some a) :
    asList item d = some as := by
  cases h with
  | scalar hscalar => exact absurd hscalar id
  | array h => exact h.mapM hd hitem

theorem asInt_int {low high i : Int} (hlow : low ≤ i) (hhigh : i ≤ high) : asInt low high (.int i) = some i := by
  have hint : Number.int? { negative := i < 0, whole := i.natAbs } = some i := by
    have hzero : ¬(decide (i < 0) = true ∧ i.natAbs = 0) := by
      rw [decide_eq_true_eq]
      omega
    rw [Number.int?, if_pos ⟨rfl, rfl, hzero⟩, Option.some.injEq]
    simp only [decide_eq_true_eq]
    split <;> omega
  simp [asInt, int, hint, hlow, hhigh]

theorem asInt_nat (high : Nat) {n : Nat} (h : n ≤ high) : asInt 0 high (.nat n) = some (n : Int) :=
  asInt_int (Int.natCast_nonneg n) (by omega)

theorem asInt64_int (i : Int64) : asInt64 (.int i.toInt) = some i := by
  have hlow := i.le_toInt
  have hhigh := i.toInt_lt
  rw [asInt64, asInt_int (by omega) (by omega), Option.map_some, Int64.ofInt_toInt]

theorem asInt32_int (i : Int32) : asInt32 (.int i.toInt) = some i := by
  have hlow := i.le_toInt
  have hhigh := i.toInt_lt
  rw [asInt32, asInt_int (by omega) (by omega), Option.map_some, Int32.ofInt_toInt]

theorem asUInt16_nat (n : UInt16) : asUInt16 (.nat n.toNat) = some n := by
  have hn := n.toNat_lt
  have hint : asInt 0 65535 (.nat n.toNat) = some (n.toNat : Int) := asInt_nat 65535 (by omega)
  rw [asUInt16, hint, Option.map_some, Int.toNat_natCast, UInt16.ofNat_toNat]

theorem asCount_nat {n : Nat} (hn : n < 2 ^ 64) : asCount (.nat n) = some n := by
  have hint : asInt 0 18446744073709551615 (.nat n) = some (n : Int) := asInt_nat 18446744073709551615 (by omega)
  rw [asCount, hint, Option.map_some, Int.toNat_natCast]

end Records

end AgentMesh.Json
