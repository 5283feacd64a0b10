import AgentMesh.Gossip.Message
import AgentMesh.Proofs.Json.Rearranged
import AgentMesh.Proofs.Json.RoundTrip
import AgentMesh.Proofs.Net.Text

/-!
# Reading messages back

A message is what is read from its datagram. So it is when the members of its objects are rearranged and scalar
members of other names are added, unless one of these cannot be taken up: a text that no characters stand for, or a
number whose conversion to a double overflows.
-/

namespace AgentMesh

/-! ## Numbers which do not overflow -/

namespace Json

theorem digitsOf_eq {n : Nat} {ds : List Nat} (hds : Nat.toDigits 10 n = ds.map Nat.digitChar) (h : ∀ d ∈ ds, d < 10) :
    digitsOf n = ds := by
  have hdigit : ∀ d < 10, (Nat.digitChar d).toNat - '0'.toNat = d := by decide
  rw [digitsOf, hds, List.map_map]
  exact (List.map_congr_left fun d hd => hdigit d (h d hd)).trans (List.map_id ds)

theorem le_foldl (ds : List Nat) (n : Nat) : n ≤ ds.foldl (fun n d => n * 10 + d) n := by
  induction ds generalizing n with
  | nil => exact Nat.le_refl n
  | cons d ds ih => exact Nat.le_trans (by omega) (ih (n * 10 + d))

theorem takeWhole_of_lt {ds : List Nat} {n : Nat} (h : ds.foldl (fun n d => n * 10 + d) n < 2 ^ 64) :
    takeWhole n ds = ⟨ds.foldl (fun n d => n * 10 + d) n, 0⟩ := by
  induction ds generalizing n with
  | nil => rfl
  | cons d ds ih =>
      have hfits : fits n d = true := decide_eq_true (Nat.lt_of_le_of_lt (le_foldl ds (n * 10 + d)) h)
      rw [takeWhole, if_pos hfits, ih h]
      rfl

theorem roundToDouble_le {n : Nat} (h : n < 2 ^ 64) : roundToDouble n ≤ n + 2 ^ 11 := by
  have hlog : n.log2 + 1 - 53 ≤ 11 := by
    by_cases hzero : n = 0
    · simp [hzero]
    · have := (Nat.log2_lt hzero).2 h
      omega
  have hunit : 1 <<< (n.log2 + 1 - 53) ≤ 2 ^ 11 := by
    rw [Nat.one_shiftLeft]
    exact Nat.pow_le_pow_right (by decide) hlog
  have hdiv := Nat.div_mul_le_self n (1 <<< (n.log2 + 1 - 53))
  unfold roundToDouble
  dsimp only
  split
  · omega
  · rw [Nat.succ_mul]
    omega

/-- A number without fraction and exponent that fits into 64 bits does not overflow. -/
theorem not_overflows {n : Number} (hfraction : n.fraction = []) (hexponent : n.exponent = none)
    (h : n.whole < 2 ^ 64) : n.overflows = false := by
  obtain ⟨ds, hds, hdigits⟩ := Text.exists_digits (show 1 < 10 by decide) n.whole
  have hwhole : takeWhole 0 (digitsOf n.whole) = ⟨n.whole, 0⟩ := by
    rw [digitsOf_eq hds hdigits.lt, takeWhole_of_lt (hdigits.value ▸ h), hdigits.value]
  have hone : roundToDouble (Decimal.tenTo 0) = 1 := by decide +kernel
  have hlimit : 2 ^ 65 ≤ doubleLimit := by decide +kernel
  have hround := roundToDouble_le h
  simp [Number.overflows, hwhole, hfraction, hexponent, takeFraction, hone]
  omega

-- A number may overflow although a double is near to it: its digits and the power of ten are both rounded up.
example : 17976931348623157081 * 10 ^ 289 < doubleLimit ∧
    Number.overflows { whole := 17976931348623157081, exponent := some 289 } = true := by
  decide +kernel

/-! ## Documents of records -/

/-- A document of bounded depth without empty objects whose texts and numbers are all right. -/
structure Tidy (p : Number → Bool) (n : Nat) (v : Json) : Prop where
  wellFormed : v.wellFormed p = true
  depth : v.depth ≤ n
  full : v.IsFull

variable {p : Number → Bool} {n : Nat}

theorem Tidy.mono {k : Nat} {v : Json} (h : Tidy p n v) (hk : n ≤ k) : Tidy p k v :=
  { h with depth := Nat.le_trans h.depth hk }

theorem tidy_str (s : String) : Tidy p n (.str s) where
  wellFormed := by simp [str, Json.wellFormed]
  depth := by simp [str, Json.depth]
  full := by simp [str, IsFull, emptyAsNull]

/-- Every number without fraction and exponent that fits into 64 bits is all right. -/
def Takes (p : Number → Bool) : Prop :=
  ∀ n : Number, n.fraction = [] → n.exponent = none → n.whole < 2 ^ 64 → p n = true

theorem tidy_int (hp : Takes p) {i : Int} (h : i.natAbs < 2 ^ 64) : Tidy p n (.int i) where
  wellFormed := by
    rw [int, Json.wellFormed]
    exact hp _ rfl rfl h
  depth := by simp [int, Json.depth]
  full := by simp [int, IsFull, emptyAsNull]

theorem tidy_nat (hp : Takes p) {k : Nat} (h : k < 2 ^ 64) : Tidy p n (.nat k) where
  wellFormed := by
    rw [nat, Json.wellFormed]
    exact hp _ rfl rfl h
  depth := by simp [nat, Json.depth]
  full := by simp [nat, IsFull, emptyAsNull]

theorem tidy_array {vs : List Json} (h : ∀ v ∈ vs, Tidy p n v) : Tidy p (n + 1) (.array vs) where
  wellFormed := wellFormedItems_iff.2 fun v hv => (h v hv).wellFormed
  depth := Nat.succ_le_succ (depthItems_le_iff.2 fun v hv => (h v hv).depth)
  full := isFull_array_iff.2 (emptyAsNullItems_eq_iff.2 fun v hv => (h v hv).full)

theorem tidy_record {fs : List (String × Json)} (hne : fs ≠ []) (h : ∀ f ∈ fs, Tidy p n f.2) :
    Tidy p (n + 1) (record fs) where
  wellFormed := wellFormedMembers_iff.2 (List.forall_mem_map.2 fun f hf => ⟨rfl, (h f hf).wellFormed⟩)
  depth := Nat.succ_le_succ (depthMembers_le_iff.2 (List.forall_mem_map.2 fun f hf => (h f hf).depth))
  full := isFull_object_iff.2 ⟨by simpa using hne,
    emptyAsNullMembers_eq_iff.2 (List.forall_mem_map.2 fun f hf => (h f hf).full)⟩

theorem tidy_int64 (hp : Takes p) (i : Int64) : Tidy p n (.int i.toInt) := by
  have hlow := i.le_toInt
  have hhigh := i.toInt_lt
  exact tidy_int hp (by omega)

theorem tidy_int32 (hp : Takes p) (i : Int32) : Tidy p n (.int i.toInt) := by
  have hlow := i.le_toInt
  have hhigh := i.toInt_lt
  exact tidy_int hp (by omega)

theorem tidy_uint16 (hp : Takes p) (i : UInt16) : Tidy p n (.nat i.toNat) := by
  have hhigh := i.toNat_lt
  exact tidy_nat hp (by omega)

end Json

open Json

variable {p : Json.Number → Bool}

/-! ## Resources -/

namespace Gpu

theorem tidy_toJson (hp : Takes p) (g : Gpu) : Tidy p 1 g.toJson := by
  refine tidy_record (by simp) ?_
  simp only [List.forall_mem_cons]
  exact ⟨tidy_str _, tidy_int64 hp _, tidy_str _, by simp⟩

theorem ofJson?_of_rearranged (g : Gpu) (d : Json) (h : Rearranged g.toJson d) (hd : d.wellFormed p = true) :
    ofJson? d = some g := by
  obtain ⟨ws, hfields, hws⟩ := h.fields (show fieldNames.Nodup by decide) hd
  rcases hws with _ | ⟨⟨hname, -⟩, _ | ⟨⟨hmemory, -⟩, _ | ⟨⟨huuid, -⟩, ⟨⟩⟩⟩⟩
  rw [ofJson?, show fields fieldNames d = _ from hfields, hname.eq_of_isScalar trivial,
    hmemory.eq_of_isScalar trivial, huuid.eq_of_isScalar trivial]
  simp [asString, str, asInt64_int]

end Gpu

namespace Resources

theorem tidy_toJson (hp : Takes p) (r : Resources) : Tidy p 3 r.toJson := by
  have hgpus : Tidy p 2 (.array (r.gpus.map Gpu.toJson)) :=
    tidy_array (List.forall_mem_map.2 fun g _ => g.tidy_toJson hp)
  refine tidy_record (by simp) ?_
  simp only [List.forall_mem_cons]
  exact ⟨tidy_int64 hp _, tidy_int64 hp _, hgpus, tidy_int32 hp _, tidy_int32 hp _, by simp⟩

theorem ofJson?_of_rearranged (r : Resources) (d : Json) (h : Rearranged r.toJson d) (hd : d.wellFormed p = true) :
    ofJson? d = some r := by
  obtain ⟨ws, hfields, hws⟩ := h.fields (show fieldNames.Nodup by decide) hd
  rcases hws with _ | ⟨⟨hcores, -⟩, _ | ⟨⟨hmemory, -⟩, _ | ⟨⟨hgpus, hgpusOk⟩, _ | ⟨⟨hmax, -⟩, _ | ⟨⟨hused, -⟩, ⟨⟩⟩⟩⟩⟩⟩
  have hlist := hgpus.asList hgpusOk fun g _ => g.ofJson?_of_rearranged
  rw [ofJson?, show fields fieldNames d = _ from hfields, hcores.eq_of_isScalar trivial,
    hmemory.eq_of_isScalar trivial, hmax.eq_of_isScalar trivial, hused.eq_of_isScalar trivial]
  simp [asInt64_int, asInt32_int, hlist]

end Resources

theorem NodeStatus.ofJson?_toJson (s : NodeStatus) : ofJson? s.toJson = some s := by
  cases s <;> rfl

/-! ## Records -/

namespace Gossip

theorem MemberState.ofJson?_toJson (s : MemberState) : ofJson? s.toJson = some s := by
  cases s <;> rfl

namespace Profile

theorem tidy_toJson (hp : Takes p) (m : Profile) : Tidy p 4 m.toJson := by
  refine tidy_record (by simp) ?_
  simp only [List.forall_mem_cons]
  exact ⟨m.resources.tidy_toJson hp, tidy_str _, by simp⟩

theorem ofJson?_of_rearranged (m : Profile) (d : Json) (h : Rearranged m.toJson d) (hd : d.wellFormed p = true) :
    ofJson? d = some m := by
  obtain ⟨ws, hfields, hws⟩ := h.fields (show ["resources", "status"].Nodup by decide) hd
  rcases hws with _ | ⟨⟨hresources, hresourcesOk⟩, _ | ⟨⟨hstatus, -⟩, ⟨⟩⟩⟩
  have hread := m.resources.ofJson?_of_rearranged _ hresources hresourcesOk
  rw [ofJson?, show fields ["resources", "status"] d = _ from hfields, hstatus.eq_of_isScalar trivial]
  simp [hread, NodeStatus.ofJson?_toJson]

end Profile

namespace MemberRecord

/-- Incarnation and heartbeat fit into 64 bits. -/
structure InRange (r : MemberRecord) : Prop where
  incarnation : r.incarnation < 2 ^ 64
  heartbeat : r.heartbeat < 2 ^ 64

theorem tidy_toJson (hp : Takes p) {r : MemberRecord} (h : r.InRange) : Tidy p 5 r.toJson := by
  refine tidy_record (by simp) ?_
  simp only [List.forall_mem_cons]
  exact ⟨tidy_str _, tidy_str _, tidy_uint16 hp _, r.profile.tidy_toJson hp, tidy_nat hp h.incarnation,
    tidy_nat hp h.heartbeat, tidy_str _, by simp⟩

theorem ofJson?_of_rearranged {r : MemberRecord} (hr : r.InRange) (d : Json) (h : Rearranged r.toJson d)
    (hd : d.wellFormed p = true) : ofJson? d = some r := by
  obtain ⟨ws, hfields, hws⟩ := h.fields (show fieldNames.Nodup by decide) hd
  rcases hws with _ | ⟨⟨hname, -⟩, _ | ⟨⟨haddr, -⟩, _ | ⟨⟨hport, -⟩, _ | ⟨⟨hprofile, hprofileOk⟩,
    _ | ⟨⟨hincarnation, -⟩, _ | ⟨⟨hheartbeat, -⟩, _ | ⟨⟨hstate, -⟩, ⟨⟩⟩⟩⟩⟩⟩⟩⟩
  have hread := r.profile.ofJson?_of_rearranged _ hprofile hprofileOk
  rw [ofJson?, show fields fieldNames d = _ from hfields, hname.eq_of_isScalar trivial, haddr.eq_of_isScalar trivial,
    hport.eq_of_isScalar trivial, hincarnation.eq_of_isScalar trivial, hheartbeat.eq_of_isScalar trivial,
    hstate.eq_of_isScalar trivial]
  simp [asString, str, Net.SocketAddr.parse?_text, asUInt16_nat, hread, asCount_nat hr.incarnation,
    asCount_nat hr.heartbeat, MemberState.ofJson?_toJson]

end MemberRecord

/-! ## Messages -/

namespace Message

/-- All the numbers of the message fit into 64 bits. -/
def InRange : Message → Prop
  | ping s seq => s.InRange ∧ seq < 2 ^ 64
  | ack s seq => s.InRange ∧ seq < 2 ^ 64
  | join s => s.InRange
  | joinAck s ms => s.InRange ∧ ∀ r ∈ ms, r.InRange
  | gossip s ms => s.InRange ∧ ∀ r ∈ ms, r.InRange

theorem tidy_membersJson (hp : Takes p) {ms : List MemberRecord} (h : ∀ r ∈ ms, r.InRange) :
    Tidy p 6 (membersJson ms) :=
  tidy_array (List.forall_mem_map.2 fun r hr => MemberRecord.tidy_toJson hp (h r hr))

theorem tidy_toJson (hp : Takes p) {m : Message} (h : m.InRange) : Tidy p 7 m.toJson := by
  refine tidy_record (by simp) ?_
  simp only [List.forall_mem_cons]
  cases m with
  | ping s seq =>
      exact ⟨tidy_str _, (MemberRecord.tidy_toJson hp h.1).mono (by decide),
        by simpa [extraFields] using tidy_nat hp h.2⟩
  | ack s seq =>
      exact ⟨tidy_str _, (MemberRecord.tidy_toJson hp h.1).mono (by decide),
        by simpa [extraFields] using tidy_nat hp h.2⟩
  | join s => exact ⟨tidy_str _, (MemberRecord.tidy_toJson hp h).mono (by decide), by simp [extraFields]⟩
  | joinAck s ms =>
      exact ⟨tidy_str _, (MemberRecord.tidy_toJson hp h.1).mono (by decide),
        by simpa [extraFields] using tidy_membersJson hp h.2⟩
  | gossip s ms =>
      exact ⟨tidy_str _, (MemberRecord.tidy_toJson hp h.1).mono (by decide),
        by simpa [extraFields] using tidy_membersJson hp h.2⟩

section Fields

variable {s : MemberRecord} {os : List (Option String × Json)}

theorem fields_seq (hs : s.InRange) {seq : Nat} (h : Holds os [("from", s.toJson), ("seq", .nat seq)])
    (hos : wellFormedMembers p os = true) :
    ∃ d, fields ["from", "seq"] (.object os) = some [d, .nat seq] ∧ MemberRecord.ofJson? d = some s := by
  obtain ⟨ws, hfields, hws⟩ := h.fields hos
  rcases hws with _ | ⟨⟨hsender, hsenderOk⟩, _ | ⟨⟨hseq, -⟩, ⟨⟩⟩⟩
  rw [hseq.eq_of_isScalar trivial] at hfields
  exact ⟨_, hfields, MemberRecord.ofJson?_of_rearranged hs _ hsender hsenderOk⟩

theorem fields_members (hs : s.InRange) {rs : List MemberRecord} (hrs : ∀ r ∈ rs, r.InRange)
    (h : Holds os [("from", s.toJson), ("members", membersJson rs)]) (hos : wellFormedMembers p os = true) :
    ∃ d e, fields ["from", "members"] (.object os) = some [d, e] ∧ MemberRecord.ofJson? d = some s ∧
      e.asList MemberRecord.ofJson? = some rs := by
  obtain ⟨ws, hfields, hws⟩ := h.fields hos
  rcases hws with _ | ⟨⟨hsender, hsenderOk⟩, _ | ⟨⟨hmembers, hmembersOk⟩, ⟨⟩⟩⟩
  exact ⟨_, _, hfields, MemberRecord.ofJson?_of_rearranged hs _ hsender hsenderOk,
    hmembers.asList hmembersOk fun r hr => MemberRecord.ofJson?_of_rearranged (hrs r hr)⟩

theorem ofFields?_of_holds {m : Message} (hm : m.InRange) (h : Holds os (("from", m.sender.toJson) :: m.extraFields))
    (hos : wellFormedMembers p os = true) : ofFields? m.typeName (.object os) = some m := by
  cases m with
  | ping s seq =>
      obtain ⟨d, hfields, hread⟩ := fields_seq hm.1 h hos
      simp [ofFields?, typeName, hfields, hread, asCount_nat hm.2]
  | ack s seq =>
      obtain ⟨d, hfields, hread⟩ := fields_seq hm.1 h hos
      simp [ofFields?, typeName, hfields, hread, asCount_nat hm.2]
  | join s =>
      obtain ⟨ws, hfields, hws⟩ := h.fields hos
      rcases hws with _ | ⟨⟨hsender, hsenderOk⟩, ⟨⟩⟩
      have hread := MemberRecord.ofJson?_of_rearranged hm _ hsender hsenderOk
      simp only [List.map_cons, List.map_nil, extraFields] at hfields
      simp [ofFields?, typeName, hfields, hread]
  | joinAck s rs =>
      obtain ⟨d, e, hfields, hread, hlist⟩ := fields_members hm.1 hm.2 h hos
      simp [ofFields?, typeName, hfields, hread, hlist]
  | gossip s rs =>
      obtain ⟨d, e, hfields, hread, hlist⟩ := fields_members hm.1 hm.2 h hos
      simp [ofFields?, typeName, hfields, hread, hlist]

/-- The type is found wherever it stands, and the other fields are left. -/
theorem splitType_of_holds {name : String} {fs : List (String × Json)} (hfs : ∀ f ∈ fs, f.1 ≠ "type")
    (h : Holds os (("type", .str name) :: fs)) :
    ∃ rest, splitType (.object os) = some (name, .object rest) ∧ rest ⊆ os ∧ Holds rest fs := by
  obtain ⟨w, hw, htype⟩ := h _ List.mem_cons_self
  obtain rfl := htype.eq_of_isScalar trivial
  have hrest : Holds os fs := fun f hf => h f (List.mem_cons_of_mem _ hf)
  refine ⟨os.filter fun m => m.1 != some "type", ?_, List.filter_subset_self os, hrest.erase hfs⟩
  simp only [splitType, hw, str]

end Fields

/-- Whether a message is taken up depends on what was added to its document alone. -/
theorem ofJson?_of_rearranged {m : Message} (hm : m.InRange) {d : Json} (h : Rearranged m.toJson d) :
    ofJson? d = if d.wellFormed (fun n => !n.overflows) then some m else none := by
  have htakes : Takes fun n => !n.overflows := fun n hfraction hexponent hwhole => by
    simp [not_overflows hfraction hexponent hwhole]
  have htidy := tidy_toJson htakes hm
  have hdepth : d.depth ≤ maxDepth := h.depth_le maxDepth (Nat.le_trans htidy.depth (by decide))
  have hfull : d.emptyAsNull = d := h.isFull htidy.full
  unfold ofJson? bufferable
  cases hd : d.wellFormed fun n => !n.overflows with
  | false => simp
  | true =>
      have hnodup :
          ((("type", Json.str m.typeName) :: ("from", m.sender.toJson) :: m.extraFields).map Prod.fst).Nodup := by
        cases m <;> simp [extraFields]
      obtain ⟨os, rfl, hos⟩ := h.exists_members hnodup
      have hnames : ∀ f ∈ ("from", m.sender.toJson) :: m.extraFields, f.1 ≠ "type" := by
        cases m <;> simp [extraFields]
      obtain ⟨rest, hsplit, hsubset, hrest⟩ := splitType_of_holds hnames hos
      have hrestOk : wellFormedMembers (fun n => !n.overflows) rest = true :=
        wellFormedMembers_iff.2 fun m hm => wellFormedMembers_iff.1 hd m (hsubset hm)
      simp [hdepth, hfull, hsplit, ofFields?_of_holds hm hrest hrestOk]

theorem ofUtf8?_encode {m : Message} (hm : m.InRange) : ofUtf8? m.encode.toUTF8 = some m.toJson := by
  have htakes : Takes Number.isDecimal := fun n hfraction _ _ => by simp [Number.isDecimal, hfraction]
  exact ofUtf8?_compact (tidy_toJson htakes hm).wellFormed

/--
A message is what is read from its datagram, and from every rearranged form of its document in which each text stands
for characters and no number overflows. From the other forms nothing is read.
-/
theorem decode?_of_rearranged {m : Message} (hm : m.InRange) :
    decode? m.encode.toUTF8 = some m ∧
    (∀ bytes d, ofUtf8? bytes = some d → Rearranged m.toJson d →
      decode? bytes = if d.wellFormed (fun n => !n.overflows) then some m else none) ∧
    ∀ d, Rearranged m.toJson d → d.wellFormed Number.isDecimal = true → d.wellFormed (fun n => !n.overflows) = true →
      decode? d.compact.toUTF8 = some m := by
  have hread {bytes : ByteArray} {d : Json} (hbytes : ofUtf8? bytes = some d) (hd : Rearranged m.toJson d) :
      decode? bytes = if d.wellFormed (fun n => !n.overflows) then some m else none := by
    simp only [decode?, hbytes, Option.bind_eq_bind, Option.bind_some, ofJson?_of_rearranged hm hd]
  have htakes : Takes fun n => !n.overflows := fun n hfraction hexponent hwhole => by
    simp [not_overflows hfraction hexponent hwhole]
  refine ⟨?_, fun bytes d => hread, fun d hd hdecimal hnumbers => ?_⟩
  · rw [hread (ofUtf8?_encode hm) (.refl _), if_pos (tidy_toJson htakes hm).wellFormed]
  · rw [hread (ofUtf8?_compact hdecimal) hd, if_pos hnumbers]

/-- A member with a name to escape, at an address with a run of zeros and a scope. -/
def sampleSender : MemberRecord where
  name := "a\"\\\n"
  addr := .v6 ⟨#v[0xfe80, 0, 0, 0, 1, 0, 0, 2]⟩ 3 7946
  rpcPort := 8080
  profile.resources.gpus := [{ name := "g" }]
  heartbeat := 2 ^ 64 - 1

/-- A ping whose document is turned round, with another member before the others. -/
def turnedPing (extra : Json) : Json :=
  .object [(some "x", extra), (some "seq", .nat 7), (some "from", sampleSender.toJson), (some "type", .str "ping")]

theorem rearranged_turnedPing {extra : Json} (h : extra.IsScalar) :
    Rearranged (ping sampleSender 7).toJson (turnedPing extra) := by
  have hturned := List.reverse_perm
    [(some "type", Json.str "ping"), (some "from", sampleSender.toJson), (some "seq", .nat 7), (some "x", extra)]
  exact @Rearranged.object _ _ [(some "x", extra)] _ (.refl _) (by simpa using h) (by simp [extraFields]) hturned

theorem decode?_turnedPing :
    decode? (ping sampleSender 7).encode.toUTF8 = some (ping sampleSender 7) ∧
    decode? (turnedPing (.number { whole := 1, exponent := some 30 })).compact.toUTF8 = some (ping sampleSender 7) := by
  have hm : (ping sampleSender 7).InRange := ⟨⟨by decide, by decide⟩, by decide⟩
  obtain ⟨hencode, -, hrearranged⟩ := decode?_of_rearranged hm
  exact ⟨hencode, hrearranged _ (rearranged_turnedPing trivial) (by decide +kernel) (by decide +kernel)⟩

/-- A number which no double comes near. -/
def hugeNumber : Json :=
  .number { whole := 1, exponent := some 999 }

theorem decode?_hugeNumber :
    Rearranged (ping sampleSender 7).toJson (turnedPing hugeNumber) ∧
    decode? (turnedPing hugeNumber).compact.toUTF8 ≠ some (ping sampleSender 7) := by
  have hm : (ping sampleSender 7).InRange := ⟨⟨by decide, by decide⟩, by decide⟩
  have hd : Rearranged (ping sampleSender 7).toJson (turnedPing hugeNumber) := rearranged_turnedPing trivial
  refine ⟨hd, ?_⟩
  rw [decode?, ofUtf8?_compact (by decide +kernel), Option.bind_eq_bind, Option.bind_some,
    ofJson?_of_rearranged hm hd, if_neg (by decide +kernel)]
  nofun

end Message

end Gossip

end AgentMesh
