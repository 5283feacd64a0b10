import AgentMesh.Broadcaster

/-!
# What subscribers come to hear

A broadcaster pushes each accepted update, and the resources whenever it is told to. A mailbox gets those values in
their order that come while it has room. Who keeps a mailbox open stays subscribed.
-/

namespace AgentMesh

/-! ## Mailboxes -/

namespace Mailbox

variable {α : Type} (b : Mailbox α) (a : α)

@[simp] theorem isOpen_push : (b.push a).isOpen = b.isOpen := by
  rw [push]
  split <;> rfl

@[simp] theorem capacity_push : (b.push a).capacity = b.capacity := by
  rw [push]
  split <;> rfl

theorem queue_push (hopen : b.isOpen = true) :
    (b.push a).queue = b.queue ++ if b.queue.length < b.capacity then [a] else [] := by
  by_cases hroom : b.queue.length < b.capacity <;> simp [push, hopen, hroom]

theorem receive_append : b.receive.2.toList ++ b.receive.1.queue = b.queue := by
  cases h : b.queue <;> simp [receive, h]

end Mailbox

/-! ## Resources that are accepted -/

/-- The used layers fit, and neither count is negative. -/
def Resources.Fits (r : Resources) : Prop :=
  0 ≤ r.usedLayers ∧ r.usedLayers ≤ r.maxLayers

instance (r : Resources) : Decidable r.Fits :=
  inferInstanceAs (Decidable (0 ≤ r.usedLayers ∧ r.usedLayers ≤ r.maxLayers))

namespace Broadcaster

variable {b : Broadcaster}

theorem check_cases (r : Resources) : (r.Fits ∧ check r = .ok ()) ∨ (¬ r.Fits ∧ ∃ e, check r = .error e) := by
  have hfits : r.Fits ↔ 0 ≤ r.usedLayers.toInt ∧ r.usedLayers.toInt ≤ r.maxLayers.toInt := by
    rw [Resources.Fits, Int32.le_iff_toInt_le, Int32.le_iff_toInt_le]
    rfl
  rw [hfits, check, Resources.validate]
  simp only [Int32.lt_iff_toInt_lt, Int32.le_iff_toInt_le, Int32.toInt_zero]
  by_cases hover : 0 ≤ r.maxLayers.toInt ∧ r.maxLayers.toInt < r.usedLayers.toInt
  · rw [if_pos hover]
    exact .inr ⟨by omega, _, rfl⟩
  · rw [if_neg hover]
    by_cases hnegative : r.maxLayers.toInt < 0 ∨ r.usedLayers.toInt < 0
    · rw [if_pos hnegative]
      exact .inr ⟨by omega, _, rfl⟩
    · rw [if_neg hnegative, if_neg (by omega)]
      exact .inl ⟨by omega, rfl⟩

theorem update_accepted {r : Resources} (h : r.Fits) :
    b.update r = ({ b with resources := r }.fanOut b.subscribers r, .ok (), [.resources r]) := by
  obtain ⟨-, hcheck⟩ | ⟨hnot, -⟩ := check_cases r
  · rw [update, hcheck]
    rfl
  · exact absurd h hnot

theorem update_rejected {r : Resources} (h : ¬ r.Fits) : ∃ e, b.update r = (b, .error e, []) := by
  obtain ⟨hfits, -⟩ | ⟨-, e, hcheck⟩ := check_cases r
  · exact absurd hfits h
  · exact ⟨e, by rw [update, hcheck]⟩

/-! ## One push -/

theorem isOpenAt_eq (b : Broadcaster) (i : Nat) : b.isOpenAt i = b.mailboxes[i]?.any (·.isOpen) := by
  rw [isOpenAt]
  cases b.mailboxes[i]? <;> rfl

theorem foldl_deliver (r : Resources) (targets : List Nat) (hnodup : targets.Nodup) (b : Broadcaster) :
    targets.foldl (fun b i => b.deliver i r) b =
      { b with mailboxes := b.mailboxes.mapIdx fun i box => if i ∈ targets then box.push r else box } := by
  induction targets generalizing b with
  | nil =>
      have hsame : b.mailboxes.mapIdx (fun _ box => box) = b.mailboxes :=
        List.ext_getElem? fun i => by cases h : b.mailboxes[i]? <;> simp [h]
      simp [hsame]
  | cons t targets ih =>
      obtain ⟨hnew, hnodup⟩ := List.nodup_cons.1 hnodup
      rw [List.foldl_cons, ih hnodup, deliver]
      congr 1
      refine List.ext_getElem? fun i => ?_
      rw [List.getElem?_mapIdx, List.getElem?_mapIdx, List.getElem?_modify]
      by_cases hi : t = i
      · subst hi
        cases b.mailboxes[t]? <;> simp [hnew]
      · simp [hi, Ne.symm hi]

/-- Everyone who is subscribed is told, and whose mailbox is closed is struck off. -/
def pushed (b : Broadcaster) (r : Resources) : Broadcaster :=
  { b with
    subscribers := b.subscribers.filter b.isOpenAt
    mailboxes := b.mailboxes.mapIdx fun i box => if i ∈ b.subscribers then box.push r else box }

theorem getElem?_mailboxes_pushed (b : Broadcaster) (r : Resources) (i : Nat) :
    (b.pushed r).mailboxes[i]? = b.mailboxes[i]?.map fun box => if i ∈ b.subscribers then box.push r else box :=
  List.getElem?_mapIdx

theorem isOpenAt_pushed (b : Broadcaster) (r : Resources) (i : Nat) : (b.pushed r).isOpenAt i = b.isOpenAt i := by
  rw [isOpenAt_eq, isOpenAt_eq, getElem?_mailboxes_pushed]
  cases b.mailboxes[i]? with
  | none => rfl
  | some box => by_cases hi : i ∈ b.subscribers <;> simp [hi]

theorem fanOut_subscribers (hnodup : b.subscribers.Nodup) (r : Resources) :
    b.fanOut b.subscribers r = b.pushed r := by
  have hopen (i : Nat) := b.isOpenAt_pushed r i
  simp only [isOpenAt, pushed] at hopen
  rw [fanOut, foldl_deliver r _ hnodup, pushed]
  by_cases hall : b.subscribers.all b.isOpenAt
  · have hsame : b.subscribers.filter b.isOpenAt = b.subscribers := List.filter_eq_self.2 (List.all_eq_true.1 hall)
    rw [if_pos hall, hsame]
  · rw [if_neg hall, prune]
    congr 1
    refine List.filter_congr fun i _ => ?_
    exact hopen i

/-! ## Runs -/

/-- What is done with a broadcaster and its mailboxes. -/
inductive Op
  | update (r : Resources)
  | broadcast
  | subscribe (capacity : Nat)
  | receive (i : Nat)
  | close (i : Nat)
  | drop (i : Nat)
deriving DecidableEq

def apply (b : Broadcaster) : Op → Broadcaster
  | .update r => (b.update r).1
  | .broadcast => b.broadcast.1
  | .subscribe capacity => (b.subscribe capacity).1
  | .receive i => (b.receive i).1
  | .close i => b.close i
  | .drop i => b.drop i

/-- The resources that an operation sets. -/
def Op.accepted? : Op → Option Resources
  | .update r => if r.Fits then some r else none
  | _ => none

/-- The value that an operation pushes. -/
def pushed? (b : Broadcaster) : Op → Option Resources
  | .update r => if r.Fits then some r else none
  | .broadcast => some b.resources
  | _ => none

/-- The value that an operation takes out of the mailbox. -/
def received? (b : Broadcaster) (i : Nat) : Op → Option Resources
  | .receive j => if j = i then (b.receive i).2 else none
  | _ => none

/-- What waits in the mailbox. -/
def queueAt (b : Broadcaster) (i : Nat) : List Resources :=
  (b.mailboxes[i]?.map Mailbox.queue).getD []

def runs (b : Broadcaster) (ops : List Op) : Broadcaster :=
  ops.foldl apply b

/-- What is taken out of the mailbox in the course of a run. -/
def received (i : Nat) : Broadcaster → List Op → List Resources
  | _, [] => []
  | b, op :: ops => (b.received? i op).toList ++ received i (b.apply op) ops

/-- What is pushed in the course of a run while fewer values than that wait in the mailbox. -/
def accommodated (i capacity : Nat) : Broadcaster → List Op → List Resources
  | _, [] => []
  | b, op :: ops =>
      (if (b.queueAt i).length < capacity then (b.pushed? op).toList else []) ++
        accommodated i capacity (b.apply op) ops

/-- Nobody is subscribed twice, and everyone with an open mailbox is subscribed. -/
structure Tidy (b : Broadcaster) : Prop where
  fits : b.resources.Fits
  nodup : b.subscribers.Nodup
  lt {i : Nat} : i ∈ b.subscribers → i < b.mailboxes.length
  subscribed {i : Nat} : b.isOpenAt i = true → i ∈ b.subscribers

theorem tidy_new {r : Resources} (h : r.Fits) (interval : Nat) : Tidy { resources := r, interval } where
  fits := h
  nodup := List.nodup_nil
  lt hi := absurd hi List.not_mem_nil
  subscribed hi := by simp [isOpenAt] at hi

theorem apply_push (h : b.Tidy) {op : Op} {r : Resources} (hpush : b.pushed? op = some r) :
    r.Fits ∧ b.apply op = pushed { b with resources := r } r := by
  cases op with
  | update r₁ =>
      by_cases hfits : r₁.Fits
      · rw [pushed?, if_pos hfits] at hpush
        cases hpush
        refine ⟨hfits, ?_⟩
        rw [apply, update_accepted hfits]
        exact fanOut_subscribers (b := { b with resources := r }) h.nodup r
      · rw [pushed?, if_neg hfits] at hpush
        cases hpush
  | broadcast =>
      cases hpush
      exact ⟨h.fits, fanOut_subscribers h.nodup _⟩
  | _ => cases hpush

theorem apply_rejected {r : Resources} (h : b.pushed? (.update r) = none) : b.apply (.update r) = b := by
  have hnot : ¬ r.Fits := by
    intro hfits
    rw [pushed?, if_pos hfits] at h
    cases h
  obtain ⟨e, hupdate⟩ := update_rejected (b := b) hnot
  rw [apply, hupdate]

theorem resources_apply (h : b.Tidy) (op : Op) : (b.apply op).resources = op.accepted?.getD b.resources := by
  cases hpush : b.pushed? op with
  | some r =>
      rw [(apply_push h hpush).2]
      cases op with
      | update r₁ =>
          rw [Op.accepted?, ← pushed?, hpush]
          rfl
      | broadcast => exact (Option.some.inj hpush).symm
      | _ => cases hpush
  | none =>
      cases op with
      | update r =>
          rw [apply_rejected hpush, Op.accepted?, ← pushed?, hpush]
          rfl
      | broadcast => cases hpush
      | _ => rfl

theorem mailbox_apply (h : b.Tidy) {i : Nat} {box : Mailbox Resources} (hbox : b.mailboxes[i]? = some box) (op : Op) :
    ∃ box', (b.apply op).mailboxes[i]? = some box' ∧ box'.capacity = box.capacity ∧
      (box'.isOpen = true → box.isOpen = true ∧
        (b.received? i op).toList ++ box'.queue =
          box.queue ++ if box.queue.length < box.capacity then (b.pushed? op).toList else []) := by
  cases hpush : b.pushed? op with
  | some r =>
      have hreceived : b.received? i op = none := by cases op <;> first | rfl | cases hpush
      rw [(apply_push h hpush).2, hreceived, getElem?_mailboxes_pushed, hbox]
      by_cases hi : i ∈ b.subscribers
      · refine ⟨box.push r, by simp [hi], box.capacity_push r, fun hopen => ?_⟩
        rw [Mailbox.isOpen_push] at hopen
        exact ⟨hopen, box.queue_push r hopen⟩
      · refine ⟨box, by simp [hi], rfl, fun hopen => absurd (h.subscribed ?_) hi⟩
        rw [isOpenAt, hbox]
        exact hopen
  | none =>
      simp only [Option.toList_none, ite_self, List.append_nil]
      cases op with
      | update r => exact ⟨box, by rw [apply_rejected hpush, hbox], rfl, fun hopen => ⟨hopen, rfl⟩⟩
      | broadcast => cases hpush
      | subscribe capacity =>
          obtain ⟨hi, -⟩ := List.getElem?_eq_some_iff.1 hbox
          refine ⟨box, ?_, rfl, fun hopen => ⟨hopen, rfl⟩⟩
          rw [apply, subscribe, subscribeTimes, List.getElem?_append_left hi, hbox]
      | receive j =>
          rw [apply, receive, List.getElem?_modify, hbox]
          by_cases hj : j = i
          · subst hj
            refine ⟨box.receive.1, by simp, rfl, fun hopen => ⟨hopen, ?_⟩⟩
            simpa [received?, receive, hbox] using box.receive_append
          · exact ⟨box, by simp [hj], rfl, fun hopen => ⟨hopen, by simp [hj, received?]⟩⟩
      | close j =>
          rw [apply, close, List.getElem?_modify, hbox]
          by_cases hj : j = i
          · exact ⟨_, rfl, by simp [hj, Mailbox.close], fun hopen => by simp [hj, Mailbox.close] at hopen⟩
          · exact ⟨box, by simp [hj], rfl, fun hopen => ⟨hopen, rfl⟩⟩
      | drop j =>
          rw [apply, drop, List.getElem?_modify, hbox]
          by_cases hj : j = i
          · exact ⟨_, rfl, by simp [hj, Mailbox.drop], fun hopen => by simp [hj, Mailbox.drop] at hopen⟩
          · exact ⟨box, by simp [hj], rfl, fun hopen => ⟨hopen, rfl⟩⟩

theorem apply_cases (h : b.Tidy) (op : Op) :
    (∃ r, b.pushed? op = some r ∧ b.apply op = pushed { b with resources := r } r) ∨
    (∃ capacity, op = .subscribe capacity) ∨
    (b.pushed? op = none ∧ (b.apply op).subscribers = b.subscribers ∧
      (b.apply op).mailboxes.length = b.mailboxes.length) := by
  cases hpush : b.pushed? op with
  | some r => exact .inl ⟨r, rfl, (apply_push h hpush).2⟩
  | none =>
      refine .inr ?_
      cases op with
      | update r =>
          rw [apply_rejected hpush]
          exact .inr ⟨rfl, rfl, rfl⟩
      | broadcast => cases hpush
      | subscribe capacity => exact .inl ⟨capacity, rfl⟩
      | receive i => exact .inr ⟨rfl, rfl, List.length_modify ..⟩
      | close i => exact .inr ⟨rfl, rfl, List.length_modify ..⟩
      | drop i => exact .inr ⟨rfl, rfl, List.length_modify ..⟩

/-- A mailbox that was there and is open was open before. -/
theorem isOpenAt_of_apply (h : b.Tidy) {op : Op} {i : Nat} (hi : i < b.mailboxes.length)
    (hopen : (b.apply op).isOpenAt i = true) : b.isOpenAt i = true := by
  obtain ⟨box', hbox', -, hstep⟩ := mailbox_apply h (List.getElem?_eq_getElem hi) op
  rw [isOpenAt, hbox'] at hopen
  rw [isOpenAt, List.getElem?_eq_getElem hi]
  exact (hstep hopen).1

theorem lt_of_isOpenAt {i : Nat} (h : b.isOpenAt i = true) : i < b.mailboxes.length := by
  rw [isOpenAt] at h
  split at h
  next hbox => exact (List.getElem?_eq_some_iff.1 hbox).1
  next => cases h

theorem Tidy.apply (h : b.Tidy) (op : Op) : (b.apply op).Tidy := by
  have hfits : (b.apply op).resources.Fits := by
    rw [resources_apply h]
    cases op with
    | update r => by_cases hr : r.Fits <;> simp [Op.accepted?, hr, h.fits]
    | _ => exact h.fits
  obtain ⟨r, -, happly⟩ | ⟨capacity, rfl⟩ | ⟨-, hsubscribers, hlength⟩ := apply_cases h op
  · have hlength : (b.apply op).mailboxes.length = b.mailboxes.length := by
      rw [happly]
      exact List.length_mapIdx
    have hsubscribers : (b.apply op).subscribers = b.subscribers.filter b.isOpenAt := by
      rw [happly]
      rfl
    refine ⟨hfits, hsubscribers ▸ h.nodup.filter _, fun hi => ?_, fun {i} hopen => ?_⟩
    · rw [hlength]
      exact h.lt (List.mem_filter.1 (hsubscribers ▸ hi)).1
    · have hbefore := isOpenAt_of_apply h (hlength ▸ lt_of_isOpenAt hopen) hopen
      rw [hsubscribers]
      exact List.mem_filter.2 ⟨h.subscribed hbefore, hbefore⟩
  · have hsubscribers : (b.apply (.subscribe capacity)).subscribers = b.subscribers ++ [b.mailboxes.length] := rfl
    have hlength : (b.apply (.subscribe capacity)).mailboxes.length = b.mailboxes.length + 1 := List.length_append
    refine ⟨hfits, ?_, fun {i} hi => ?_, fun {i} hopen => ?_⟩
    · rw [hsubscribers, List.nodup_append]
      refine ⟨h.nodup, by simp, fun i hi j hj => ?_⟩
      rw [List.mem_singleton.1 hj]
      exact Nat.ne_of_lt (h.lt hi)
    · rw [hlength]
      rw [hsubscribers, List.mem_append, List.mem_singleton] at hi
      rcases hi with hi | rfl
      · exact Nat.lt_succ_of_lt (h.lt hi)
      · exact Nat.lt_succ_self _
    · rw [hsubscribers, List.mem_append, List.mem_singleton]
      rcases Nat.lt_succ_iff_lt_or_eq.1 (hlength ▸ lt_of_isOpenAt hopen) with hi | hi
      · exact .inl (h.subscribed (isOpenAt_of_apply h hi hopen))
      · exact .inr hi
  · refine ⟨hfits, hsubscribers ▸ h.nodup, fun hi => ?_, fun {i} hopen => ?_⟩
    · rw [hlength]
      exact h.lt (hsubscribers ▸ hi)
    · rw [hsubscribers]
      exact h.subscribed (isOpenAt_of_apply h (hlength ▸ lt_of_isOpenAt hopen) hopen)

theorem Tidy.runs (h : b.Tidy) (ops : List Op) : (b.runs ops).Tidy := by
  induction ops generalizing b with
  | nil => exact h
  | cons op ops ih => exact ih (h.apply op)

theorem resources_runs (h : b.Tidy) (ops : List Op) :
    (b.runs ops).resources = (ops.filterMap Op.accepted?).getLast?.getD b.resources := by
  induction ops generalizing b with
  | nil => rfl
  | cons op ops ih =>
      change ((b.apply op).runs ops).resources = _
      rw [ih (h.apply op), resources_apply h]
      cases haccepted : op.accepted? with
      | none => simp [haccepted]
      | some r => simp [haccepted, List.getLast?_cons]

theorem isOpenAt_of_runs (h : b.Tidy) {i : Nat} (hi : i < b.mailboxes.length) (ops : List Op)
    (hopen : (b.runs ops).isOpenAt i = true) : b.isOpenAt i = true := by
  induction ops generalizing b with
  | nil => exact hopen
  | cons op ops ih =>
      obtain ⟨_, hbox', -⟩ := mailbox_apply h (List.getElem?_eq_getElem hi) op
      exact isOpenAt_of_apply h hi (ih (h.apply op) (List.getElem?_eq_some_iff.1 hbox').1 hopen)

theorem queueAt_eq {i : Nat} {box : Mailbox Resources} (hbox : b.mailboxes[i]? = some box) :
    b.queueAt i = box.queue := by
  rw [queueAt, hbox]
  rfl

/-- What was taken out and what still waits is what waited before and what was pushed while there was room. -/
theorem received_runs (h : b.Tidy) {i : Nat} {box : Mailbox Resources} (hbox : b.mailboxes[i]? = some box)
    (ops : List Op) (hopen : (b.runs ops).isOpenAt i = true) :
    received i b ops ++ (b.runs ops).queueAt i = box.queue ++ accommodated i box.capacity b ops := by
  induction ops generalizing b box with
  | nil => simp [received, accommodated, runs, queueAt_eq hbox]
  | cons op ops ih =>
      obtain ⟨box', hbox', hcapacity, hstep⟩ := mailbox_apply h hbox op
      have hstill : (b.apply op).isOpenAt i = true :=
        isOpenAt_of_runs (h.apply op) (List.getElem?_eq_some_iff.1 hbox').1 ops hopen
      rw [isOpenAt, hbox'] at hstill
      obtain ⟨-, htaken⟩ := hstep hstill
      have hrest := ih (h.apply op) hbox' hopen
      change (b.received? i op).toList ++ received i (b.apply op) ops ++ ((b.apply op).runs ops).queueAt i = _
      rw [List.append_assoc, hrest, hcapacity, ← List.append_assoc, htaken, accommodated, queueAt_eq hbox,
        List.append_assoc]

theorem received_subscribed (h : b.Tidy) (capacity : Nat) (ops : List Op) :
    ((b.subscribe capacity).1.runs ops).isOpenAt (b.subscribe capacity).2 = true →
      (b.subscribe capacity).2 ∈ ((b.subscribe capacity).1.runs ops).subscribers ∧
      received (b.subscribe capacity).2 (b.subscribe capacity).1 ops ++
          ((b.subscribe capacity).1.runs ops).queueAt (b.subscribe capacity).2 =
        accommodated (b.subscribe capacity).2 (max capacity 1) (b.subscribe capacity).1 ops := by
  have hnew : (b.subscribe capacity).1.Tidy := h.apply (.subscribe capacity)
  have hbox : (b.subscribe capacity).1.mailboxes[(b.subscribe capacity).2]? = some { capacity := max capacity 1 } := by
    simp [subscribe, subscribeTimes]
  intro hopen
  exact ⟨(hnew.runs ops).subscribed hopen, received_runs hnew hbox ops hopen⟩

/--
A push leaves those subscribed, in their order, whose mailbox is open; everything else leaves everyone subscribed.
-/
theorem subscribers_apply (h : b.Tidy) (op : Op) :
    ((b.pushed? op).isSome →
      (b.apply op).subscribers = b.subscribers.filter b.isOpenAt ∧
      ∀ i ∈ (b.apply op).subscribers, (b.apply op).isOpenAt i = true) ∧
    ∀ i ∈ b.subscribers, b.isOpenAt i = true → i ∈ (b.apply op).subscribers := by
  obtain ⟨r, hpush, happly⟩ | ⟨capacity, rfl⟩ | ⟨hpush, hsubscribers, -⟩ := apply_cases h op
  · rw [happly]
    refine ⟨fun _ => ⟨rfl, fun i hi => ?_⟩, fun i hi hopen => List.mem_filter.2 ⟨hi, hopen⟩⟩
    rw [isOpenAt_pushed]
    exact (List.mem_filter.1 hi).2
  · exact ⟨nofun, fun i hi _ => List.mem_append_left _ hi⟩
  · rw [hpush, hsubscribers]
    exact ⟨nofun, fun i hi _ => hi⟩

/--
What holds of a broadcaster after any run that began with valid resources: it has the resources of the last accepted
update; what is rejected changes and reports nothing; who subscribes and keeps the mailbox open gets, in order, what
is pushed while there is room; and only those are struck off whose mailbox is closed, all of them with the next push.
-/
theorem runs_accept_and_tell {r₀ : Resources} (hr₀ : r₀.Fits) (interval : Nat) (ops : List Op) :
    let b := runs { resources := r₀, interval } ops
    (b.resources.Fits ∧ b.resources = (ops.filterMap Op.accepted?).getLast?.getD r₀) ∧
    (∀ r, ((∃ e, (b.update r).2.1 = .error e) ↔ ¬ r.Fits) ∧ (¬ r.Fits → ∃ e, b.update r = (b, .error e, []))) ∧
    (∀ capacity rest,
      let i := (b.subscribe capacity).2
      let b₁ := (b.subscribe capacity).1
      let b₂ := b₁.runs rest
      b₂.isOpenAt i = true →
        i ∈ b₂.subscribers ∧ received i b₁ rest ++ b₂.queueAt i = accommodated i (max capacity 1) b₁ rest) ∧
    ∀ op,
      ((b.pushed? op).isSome →
        (b.apply op).subscribers = b.subscribers.filter b.isOpenAt ∧
        ∀ i ∈ (b.apply op).subscribers, (b.apply op).isOpenAt i = true) ∧
      ∀ i ∈ b.subscribers, b.isOpenAt i = true → i ∈ (b.apply op).subscribers := by
  intro b
  have hnew := tidy_new hr₀ interval
  have htidy : b.Tidy := hnew.runs ops
  refine ⟨⟨htidy.fits, resources_runs hnew ops⟩, fun r => ⟨⟨?_, fun hnot => ?_⟩, update_rejected⟩,
    received_subscribed htidy, subscribers_apply htidy⟩
  · rintro ⟨e, herror⟩ hfits
    rw [update_accepted hfits] at herror
    cases herror
  · obtain ⟨e, hupdate⟩ := update_rejected (b := b) hnot
    exact ⟨e, by rw [hupdate]⟩

/-- Four layers, of which some are used. -/
def layersUsed (used : Int32) : Resources :=
  { maxLayers := 4, usedLayers := used }

/-- A rejected update between two accepted ones; and of two mailboxes the first is closed. -/
def fewOps : List Op :=
  [.subscribe 0, .subscribe 2, .update (layersUsed 1), .update (layersUsed 5), .update (layersUsed 4), .drop 0]

theorem runs_accept_and_tell_fewOps :
    (layersUsed 0).Fits ∧
    let b := runs { resources := layersUsed 0 } fewOps
    let b₁ := (b.subscribe 2).1
    let rest : List Op := [.update (layersUsed 2), .broadcast, .broadcast, .receive 2, .update (layersUsed 3)]
    b.resources = layersUsed 4 ∧ (∃ e, b.update (layersUsed (-1)) = (b, .error e, [])) ∧
      (b₁.runs rest).isOpenAt 2 = true ∧ received 2 b₁ rest = [layersUsed 2] ∧
      (b₁.runs rest).queueAt 2 = [layersUsed 2, layersUsed 3] ∧
      (∃ i ∈ b.subscribers, b.isOpenAt i = false) ∧ (b.apply .broadcast).subscribers = [1] := by
  dsimp only
  have hfits : (layersUsed 0).Fits := by decide
  obtain ⟨⟨-, hresources⟩, hupdate, hheard, hpush⟩ := runs_accept_and_tell hfits 30000 fewOps
  obtain ⟨-, hqueue⟩ := hheard 2 [.update (layersUsed 2), .broadcast, .broadcast, .receive 2, .update (layersUsed 3)]
    (by decide +kernel)
  have hindex : (subscribe (runs { resources := layersUsed 0 } fewOps) 2).2 = 2 := by decide +kernel
  have hreceived : received 2 (subscribe (runs { resources := layersUsed 0 } fewOps) 2).1
      [.update (layersUsed 2), .broadcast, .broadcast, .receive 2, .update (layersUsed 3)] = [layersUsed 2] := by
    decide +kernel
  have hpushed : accommodated 2 2 (subscribe (runs { resources := layersUsed 0 } fewOps) 2).1
      [.update (layersUsed 2), .broadcast, .broadcast, .receive 2, .update (layersUsed 3)] =
      [layersUsed 2, layersUsed 2, layersUsed 3] := by
    decide +kernel
  rw [hindex, hreceived] at hqueue
  refine ⟨hfits, ?_, (hupdate _).2 (by decide), by decide +kernel, hreceived, ?_, ⟨0, by decide +kernel⟩, ?_⟩
  · rw [hresources]
    decide
  · exact List.append_cancel_left (hqueue.trans hpushed)
  · rw [((hpush .broadcast).1 rfl).1]
    decide +kernel

end Broadcaster

end AgentMesh
