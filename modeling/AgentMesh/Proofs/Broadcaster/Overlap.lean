import AgentMesh.Proofs.Broadcaster.Run
import Mathlib.Logic.Function.Basic
import Mathlib.Logic.Function.Iterate

/-!
# Updates that overlap

An update stores the resources in one section and tells of them in later ones, and between two of these other updates
go on. So what was stored last need not be what was told last: an update that is overtaken tells of its resources
afterwards. If nobody is overtaken by the last update, everyone has heard of that one in the end.
-/

namespace AgentMesh

namespace Broadcaster

/-- How far an update has got. -/
inductive Update
  | called (r : Resources)
  /-- The resources are stored, and nothing has been reported. -/
  | reporting (r : Resources) (targets : List Nat)
  /-- These subscribers are still to be told; it is known whether one of the others was closed. -/
  | sending (r : Resources) (targets : List Nat) (met : Bool)
  | returned (result : Except AgentError Unit)

/-- One section of an update. -/
def Update.proceed (b : Broadcaster) : Update → Broadcaster × Update
  | .called r =>
      match check r with
      | .error e => (b, .returned (.error e))
      | .ok () => ((b.store r).1, .reporting r (b.store r).2)
  | .reporting r targets => (b, .sending r targets false)
  | .sending r (k :: targets) met => (b.deliver k r, .sending r targets (met || !b.isOpenAt k))
  | .sending _ [] met => (if met then b.prune else b, .returned (.ok ()))
  | .returned result => (b, .returned result)

/-- The update has taken its first section. -/
def Update.hasStored : Update → Bool
  | .called _ => false
  | _ => true

def Update.isReturned : Update → Bool
  | .returned _ => true
  | _ => false

/-- What the next section tells the metrics. -/
def Update.report? : Update → Option Resources
  | .reporting r _ => some r
  | _ => none

/-- What the next section sends, and to which subscriber. -/
def Update.send? : Update → Option (Nat × Resources)
  | .sending r (k :: _) _ => some (k, r)
  | _ => none

theorem isOpenAt_deliver (b : Broadcaster) (k : Nat) (r : Resources) (i : Nat) :
    (b.deliver k r).isOpenAt i = b.isOpenAt i := by
  rw [isOpenAt_eq, isOpenAt_eq, deliver, List.getElem?_modify]
  by_cases hk : k = i <;> cases b.mailboxes[i]? <;> simp [hk]

theorem isOpenAt_of_modify {b : Broadcaster} (k : Nat) {f : Mailbox Resources → Mailbox Resources}
    (hf : ∀ box, (f box).isOpen = true → box.isOpen = true) (i : Nat)
    (hopen : isOpenAt { b with mailboxes := b.mailboxes.modify k f } i = true) : b.isOpenAt i = true := by
  rw [isOpenAt_eq, List.getElem?_modify] at hopen
  rw [isOpenAt_eq]
  cases hbox : b.mailboxes[i]? with
  | none => simp [hbox] at hopen
  | some box =>
      by_cases hk : k = i
      · exact hf box (by simpa [hbox, hk] using hopen)
      · simpa [hbox, hk] using hopen

namespace Update

/-- A section after the other, with nothing in between. -/
def alone (n : Nat) (b : Broadcaster) (u : Update) : Broadcaster × Update :=
  (fun p => p.2.proceed p.1)^[n] (b, u)

theorem alone_succ (n : Nat) (b : Broadcaster) (u : Update) :
    alone (n + 1) b u = alone n (u.proceed b).1 (u.proceed b).2 :=
  Function.iterate_succ_apply ..

theorem alone_returned (n : Nat) (b : Broadcaster) (result : Except AgentError Unit) :
    alone n b (.returned result) = (b, .returned result) := by
  induction n with
  | zero => rfl
  | succ n ih => exact ih

theorem alone_sending (r : Resources) (targets : List Nat) (met : Bool) (b : Broadcaster) :
    alone (targets.length + 1) b (.sending r targets met) =
      (if met = false ∧ targets.all b.isOpenAt then targets.foldl (fun b i => b.deliver i r) b
        else (targets.foldl (fun b i => b.deliver i r) b).prune, .returned (.ok ())) := by
  induction targets generalizing b met with
  | nil => cases met <;> rfl
  | cons k targets ih =>
      have hopen : (b.deliver k r).isOpenAt = b.isOpenAt := funext (b.isOpenAt_deliver k r)
      rw [List.length_cons, alone_succ, proceed, ih, hopen]
      cases met <;> cases hk : b.isOpenAt k <;> simp [hk]

/-- An update that nobody interrupts. -/
theorem alone_called (b : Broadcaster) (r : Resources) :
    alone (b.subscribers.length + 3) b (.called r) = ((b.update r).1, .returned (b.update r).2.1) := by
  cases hcheck : check r with
  | error e => simp only [alone_succ, proceed, hcheck, alone_returned, update]
  | ok =>
      rw [alone_succ, alone_succ, proceed, hcheck]
      change alone (b.subscribers.length + 1) (b.store r).1 (.sending r b.subscribers false) = _
      rw [alone_sending, update, hcheck]
      simp [fanOut, store]

end Update

/-- Whether a push finds room in the mailbox. -/
def hasRoomAt (b : Broadcaster) (k : Nat) : Bool :=
  b.mailboxes[k]?.any fun box => box.queue.length < box.capacity

/-- Updates that are under way, and what was told last. -/
structure Overlap (ι : Type) where
  broadcaster : Broadcaster
  calls : ι → Update
  /-- What the metrics were told. -/
  reported : Option Resources := none
  /-- What came into each mailbox. -/
  heard : Nat → Option Resources := fun _ => none
  /-- Something was pushed to a mailbox that was full. -/
  hasLost : Bool := false

namespace Overlap

variable {ι : Type}

/-- All updates are called at once. -/
def fresh (b : Broadcaster) (values : ι → Resources) : Overlap ι where
  broadcaster := b
  calls i := .called (values i)

inductive Turn (ι : Type)
  | advance (i : ι)
  | receive (k : Nat)
  | close (k : Nat)
  | drop (k : Nat)

variable [DecidableEq ι]

/-- An update goes on by one section. -/
def advance (s : Overlap ι) (i : ι) : Overlap ι where
  broadcaster := ((s.calls i).proceed s.broadcaster).1
  calls := Function.update s.calls i ((s.calls i).proceed s.broadcaster).2
  reported := (s.calls i).report?.or s.reported
  heard := match (s.calls i).send? with
    | some (k, r) =>
        if s.broadcaster.isOpenAt k && s.broadcaster.hasRoomAt k then Function.update s.heard k (some r) else s.heard
    | none => s.heard
  hasLost := s.hasLost || (s.calls i).send?.any fun p => s.broadcaster.isOpenAt p.1 && !s.broadcaster.hasRoomAt p.1

def step (s : Overlap ι) : Turn ι → Overlap ι
  | .advance i => s.advance i
  | .receive k => { s with broadcaster := (s.broadcaster.receive k).1 }
  | .close k => { s with broadcaster := s.broadcaster.close k }
  | .drop k => { s with broadcaster := s.broadcaster.drop k }

def run (s : Overlap ι) (turns : List (Turn ι)) : Overlap ι :=
  turns.foldl step s

end Overlap

/-! ## What an update still owes -/

namespace Update

/-- The update has stored that value and has still to tell the subscriber. -/
def Owes (u : Update) (k : Nat) (r : Resources) : Prop :=
  (∃ targets, u = .reporting r targets ∧ k ∈ targets) ∨ ∃ targets met, u = .sending r targets met ∧ k ∈ targets

variable {u : Update} {k : Nat} {r : Resources}

theorem hasStored_proceed (u : Update) (b : Broadcaster) : (u.proceed b).2.hasStored = true := by
  cases u with
  | called r =>
      rw [proceed]
      split <;> rfl
  | sending r targets met => cases targets <;> rfl
  | _ => rfl

theorem resources_proceed (h : u.hasStored = true) (b : Broadcaster) :
    (u.proceed b).1.resources = b.resources := by
  cases u with
  | called r => cases h
  | sending r targets met =>
      cases targets with
      | nil => cases met <;> rfl
      | cons k targets => rfl
  | _ => rfl

theorem isOpenAt_proceed (h : u.hasStored = true) (b : Broadcaster) (k : Nat) :
    (u.proceed b).1.isOpenAt k = b.isOpenAt k := by
  cases u with
  | called r => cases h
  | sending r targets met =>
      cases targets with
      | nil => cases met <;> rfl
      | cons k targets => exact b.isOpenAt_deliver _ r _
  | _ => rfl

theorem report?_proceed (h : u.hasStored = true) (b : Broadcaster) : (u.proceed b).2.report? = none := by
  cases u with
  | called r => cases h
  | sending r targets met => cases targets <;> rfl
  | _ => rfl

/-- Nothing is owed anew. -/
theorem owes_of_proceed (h : u.hasStored = true) {b : Broadcaster} (howes : (u.proceed b).2.Owes k r) : u.Owes k r := by
  cases u with
  | called r => cases h
  | reporting r₁ targets =>
      obtain ⟨_, hu, -⟩ | ⟨_, _, hu, hk⟩ := howes
      · cases hu
      · cases hu
        exact .inl ⟨_, rfl, hk⟩
  | sending r₁ targets met =>
      cases targets with
      | nil => obtain ⟨_, hu, -⟩ | ⟨_, _, hu, -⟩ := howes <;> cases hu
      | cons k₁ targets =>
          obtain ⟨_, hu, -⟩ | ⟨_, _, hu, hk⟩ := howes
          · cases hu
          · cases hu
            exact .inr ⟨_, _, rfl, List.mem_cons_of_mem _ hk⟩
  | returned result => obtain ⟨_, hu, -⟩ | ⟨_, _, hu, -⟩ := howes <;> cases hu

/-- What is owed is sent next, or is owed still. -/
theorem Owes.proceed (howes : u.Owes k r) (b : Broadcaster) : u.send? = some (k, r) ∨ (u.proceed b).2.Owes k r := by
  obtain ⟨targets, rfl, hk⟩ | ⟨_, met, rfl, hk⟩ := howes
  · exact .inr (.inr ⟨targets, false, rfl, hk⟩)
  · cases hk with
    | head targets => exact .inl rfl
    | tail k₁ hk => exact .inr (.inr ⟨_, _, rfl, hk⟩)

/-- Who has returned has stored its value and owes nothing. -/
theorem quiet_of_isReturned (h : u.isReturned = true) :
    u.hasStored = true ∧ u.report? = none ∧ ∀ k r, ¬ u.Owes k r := by
  cases u with
  | returned result =>
      refine ⟨rfl, rfl, fun k r howes => ?_⟩
      obtain ⟨_, hu, -⟩ | ⟨_, _, hu, -⟩ := howes <;> cases hu
  | _ => cases h

theorem owes_of_send? (h : u.send? = some (k, r)) : u.Owes k r := by
  cases u with
  | sending r₁ targets met =>
      cases targets with
      | nil => cases h
      | cons k₁ targets =>
          cases h
          exact .inr ⟨_, _, rfl, List.mem_cons_self⟩
  | _ => cases h

end Update

namespace Overlap

variable {ι : Type} [DecidableEq ι] {s s₁ : Overlap ι} {i : ι}

/-- What comes into an open mailbox by a section, if nothing is lost. -/
theorem heard_advance {k : Nat} (hopen : s.broadcaster.isOpenAt k = true) (hkept : (s.advance i).hasLost = false) :
    (∃ r, (s.calls i).send? = some (k, r) ∧ (s.advance i).heard k = some r) ∨
    ((∀ r, (s.calls i).send? ≠ some (k, r)) ∧ (s.advance i).heard k = s.heard k) := by
  simp only [advance] at hkept ⊢
  cases hsend : (s.calls i).send? with
  | none => exact .inr ⟨nofun, rfl⟩
  | some p =>
      obtain ⟨k₁, r⟩ := p
      by_cases hk : k₁ = k
      · subst hk
        have hroom : s.broadcaster.hasRoomAt k₁ = true := by simpa [hsend, hopen] using (Bool.or_eq_false_iff.1 hkept).2
        exact .inl ⟨r, rfl, by simp [hopen, hroom]⟩
      · refine .inr ⟨fun r' h => hk ?_, ?_⟩
        · cases h
          rfl
        · dsimp only
          split
          · exact Function.update_of_ne (Ne.symm hk) ..
          · rfl

/--
How things stand since the last update stored its value: what is told comes from updates that had not told it yet.
-/
structure Settling (s₁ s : Overlap ι) (i : ι) (r : Resources) : Prop where
  stored (j : ι) : (s.calls j).hasStored = true
  resources : s.broadcaster.resources = r
  reports {j : ι} {v : Resources} : (s.calls j).report? = some v → (s₁.calls j).report? = some v
  owes {j : ι} {k : Nat} {v : Resources} : (s.calls j).Owes k v → (s₁.calls j).Owes k v
  reported : (s.calls i).report? = some r ∨ ∃ j v, s.reported = some v ∧ (s₁.calls j).report? = some v
  heard {k : Nat} : (s₁.calls i).Owes k r → s.broadcaster.isOpenAt k = true → s.hasLost = false →
    (s.calls i).Owes k r ∨ ∃ j v, s.heard k = some v ∧ (s₁.calls j).Owes k v

theorem Settling.advance {r : Resources} (h : Settling s₁ s i r) (j : ι) : Settling s₁ (s.advance j) i r := by
  have hstored := h.stored j
  refine ⟨fun j' => ?_, ?_, fun {j' v} hv => ?_, fun {j' k v} hv => ?_, ?_, fun {k} howed hopen hkept => ?_⟩
  · by_cases hj : j' = j
    · subst hj
      simpa [Overlap.advance] using Update.hasStored_proceed _ _
    · simpa [Overlap.advance, hj] using h.stored j'
  · exact (Update.resources_proceed hstored _).trans h.resources
  · by_cases hj : j' = j
    · subst hj
      simp [Overlap.advance, Update.report?_proceed hstored] at hv
    · exact h.reports (by simpa [Overlap.advance, hj] using hv)
  · by_cases hj : j' = j
    · subst hj
      exact h.owes (Update.owes_of_proceed hstored (by simpa [Overlap.advance] using hv))
    · exact h.owes (by simpa [Overlap.advance, hj] using hv)
  · cases hreport : (s.calls j).report? with
    | some v => exact .inr ⟨j, v, by simp [Overlap.advance, hreport], h.reports hreport⟩
    | none =>
        have hsame : (s.advance j).reported = s.reported := by simp [Overlap.advance, hreport]
        rw [hsame]
        refine h.reported.imp_left fun hi => ?_
        have hij : i ≠ j := by
          rintro rfl
          rw [hreport] at hi
          cases hi
        simpa [Overlap.advance, hij] using hi
  · have hopen : s.broadcaster.isOpenAt k = true := Update.isOpenAt_proceed hstored _ k ▸ hopen
    obtain ⟨v, hsend, hheard⟩ | ⟨hsilent, hheard⟩ := heard_advance hopen hkept
    · exact .inr ⟨j, v, hheard, h.owes (Update.owes_of_send? hsend)⟩
    · rw [hheard]
      refine (h.heard howed hopen (Bool.or_eq_false_iff.1 hkept).1).imp_left fun hi => ?_
      by_cases hij : i = j
      · subst hij
        have hrest := (hi.proceed s.broadcaster).resolve_left (hsilent r)
        simpa [Overlap.advance] using hrest
      · simpa [Overlap.advance, hij] using hi

/-- What the owners of mailboxes do changes neither the resources nor the calls, and opens no mailbox. -/
theorem step_cases (s : Overlap ι) (t : Turn ι) :
    (∃ j, t = .advance j) ∨
    ∃ b : Broadcaster, s.step t = { s with broadcaster := b } ∧ b.resources = s.broadcaster.resources ∧
      ∀ k, b.isOpenAt k = true → s.broadcaster.isOpenAt k = true := by
  cases t with
  | advance j => exact .inl ⟨j, rfl⟩
  | receive k => exact .inr ⟨_, rfl, rfl, isOpenAt_of_modify k fun _ hopen => hopen⟩
  | close k => exact .inr ⟨_, rfl, rfl, isOpenAt_of_modify k nofun⟩
  | drop k => exact .inr ⟨_, rfl, rfl, isOpenAt_of_modify k nofun⟩

theorem Settling.step {r : Resources} (h : Settling s₁ s i r) (t : Turn ι) : Settling s₁ (s.step t) i r := by
  obtain ⟨j, rfl⟩ | ⟨b, hstep, hresources, hopens⟩ := s.step_cases t
  · exact h.advance j
  · rw [hstep]
    exact ⟨h.stored, hresources.trans h.resources, h.reports, h.owes, h.reported,
      fun howed hopen => h.heard howed (hopens _ hopen)⟩

theorem Settling.run {r : Resources} (h : Settling s₁ s i r) (turns : List (Turn ι)) :
    Settling s₁ (s.run turns) i r := by
  induction turns generalizing s with
  | nil => exact h
  | cons t turns ih => exact ih (h.step t)

/-! ## The last update to store -/

/-- Every other update has stored its value, and this one stores that value next. -/
def StoresLast (s : Overlap ι) (i : ι) (r : Resources) : Prop :=
  s.calls i = .called r ∧ ∀ j ≠ i, (s.calls j).hasStored = true

theorem Settling.of_storesLast {r : Resources} (h : s.StoresLast i r) (hfits : r.Fits) :
    (s.advance i).calls i = .reporting r (s.advance i).broadcaster.subscribers ∧
    Settling (s.advance i) (s.advance i) i r := by
  obtain ⟨-, hcheck⟩ | ⟨hnot, -⟩ := check_cases r
  · have hproceed : (s.calls i).proceed s.broadcaster =
        ((s.broadcaster.store r).1, .reporting r (s.broadcaster.store r).2) := by rw [h.1, Update.proceed, hcheck]
    have hcall : (s.advance i).calls i = .reporting r (s.advance i).broadcaster.subscribers := by
      simp [Overlap.advance, hproceed, store]
    refine ⟨hcall, fun j => ?_, ?_, id, id, .inl (by rw [hcall]; rfl), fun howed _ _ => .inl howed⟩
    · by_cases hj : j = i
      · subst hj
        rw [hcall]
        rfl
      · simpa [Overlap.advance, hj] using h.2 j hj
    · simp [Overlap.advance, hproceed, store]
  · exact absurd hfits hnot

/-- An update that was called and is not yet through was called with that value. -/
theorem called_of_run (turns : List (Turn ι)) {s : Overlap ι} {r : Resources}
    (h : (s.run turns).calls i = .called r) : s.calls i = .called r := by
  induction turns generalizing s with
  | nil => exact h
  | cons t turns ih =>
      have hnext : (s.step t).calls i = .called r := ih h
      obtain ⟨j, rfl⟩ | ⟨b, hstep, -⟩ := s.step_cases t
      · by_cases hj : i = j
        · subst hj
          have hstored := Update.hasStored_proceed (s.calls i) s.broadcaster
          have hcall : ((s.calls i).proceed s.broadcaster).2 = .called r := by simpa [step, advance] using hnext
          rw [hcall] at hstored
          cases hstored
        · simpa [step, advance, hj] using hnext
      · rwa [hstep] at hnext

theorem exists_storesLast (turns : List (Turn ι)) {s : Overlap ι} (hcalled : ∃ j, (s.calls j).hasStored = false)
    (hstored : ∀ j, ((s.run turns).calls j).hasStored = true) :
    ∃ before i after r, turns = before ++ .advance i :: after ∧ (s.run before).StoresLast i r := by
  induction turns generalizing s with
  | nil =>
      obtain ⟨j, hj⟩ := hcalled
      exact absurd (hstored j) (by simp [run, hj])
  | cons t turns ih =>
      by_cases hnext : ∃ j, ((s.step t).calls j).hasStored = false
      · obtain ⟨before, i, after, r, rfl, hlast⟩ := ih hnext hstored
        exact ⟨t :: before, i, after, r, rfl, hlast⟩
      · have hall (j : ι) : ((s.step t).calls j).hasStored = true := by simpa using not_exists.1 hnext j
        obtain ⟨j, hj⟩ := hcalled
        obtain ⟨i, rfl⟩ | ⟨b, hstep, -⟩ := s.step_cases t
        · have hothers (j : ι) (hij : j ≠ i) : (s.calls j).hasStored = true := by
            simpa [step, advance, hij] using hall j
          obtain rfl : j = i := by
            by_contra hij
            rw [hothers j hij] at hj
            cases hj
          cases hcall : s.calls j with
          | called r => exact ⟨[], j, turns, r, rfl, hcall, hothers⟩
          | _ =>
              rw [hcall] at hj
              cases hj
        · rw [hstep] at hall
          rw [hall j] at hj
          cases hj

/-- What was told last comes from an update that had not told it when the last one stored its value. -/
theorem told_after_last_store {s s' : Overlap ι} {r : Resources} (hlast : s.StoresLast i r) (hfits : r.Fits)
    {after : List (Turn ι)} (hrun : (s.advance i).run after = s') (hreturned : ∀ j, (s'.calls j).isReturned = true)
    (hkept : s'.hasLost = false) :
    s'.broadcaster.resources = r ∧
    (∃ j v, s'.reported = some v ∧ ((s.advance i).calls j).report? = some v) ∧
    ∀ k ∈ (s.advance i).broadcaster.subscribers, s'.broadcaster.isOpenAt k = true →
      ∃ j v, s'.heard k = some v ∧ ((s.advance i).calls j).Owes k v := by
  obtain ⟨hcall, hsettling⟩ := Settling.of_storesLast hlast hfits
  have hend : Settling (s.advance i) s' i r := hrun ▸ hsettling.run after
  obtain ⟨-, hreport, howes⟩ := Update.quiet_of_isReturned (hreturned i)
  refine ⟨hend.resources, hend.reported.resolve_left ?_, fun k hk hopen => ?_⟩
  · rw [hreport]
    nofun
  · have howed : ((s.advance i).calls i).Owes k r := .inl ⟨_, hcall, hk⟩
    exact (hend.heard howed hopen hkept).resolve_left (howes k r)

/--
Any number of updates that are accepted, in any order of their sections, until all have returned. One of them stores
its value last, and that value remains. What the metrics or a subscriber were told last is that value, or one that
another update had stored before and told afterwards; so it is that value if no other update was still to tell one.
-/
theorem last_stored_is_told_last [Nonempty ι] (b : Broadcaster) {values : ι → Resources} (hfits : ∀ j, (values j).Fits)
    (turns : List (Turn ι)) (hreturned : ∀ j, (((fresh b values).run turns).calls j).isReturned = true)
    (hkept : ((fresh b values).run turns).hasLost = false) :
    let s := (fresh b values).run turns
    (∃ before i after, turns = before ++ .advance i :: after ∧
      ((fresh b values).run before).StoresLast i (values i)) ∧
    ∀ before i after, turns = before ++ .advance i :: after → ((fresh b values).run before).StoresLast i (values i) →
      let s₁ := ((fresh b values).run before).advance i
      s.broadcaster.resources = values i ∧
      (∃ j v, s.reported = some v ∧ (s₁.calls j).report? = some v) ∧
      ((∀ j ≠ i, (s₁.calls j).report? = none) → s.reported = some s.broadcaster.resources) ∧
      ∀ k ∈ s₁.broadcaster.subscribers, s.broadcaster.isOpenAt k = true →
        (∃ j v, s.heard k = some v ∧ (s₁.calls j).Owes k v) ∧
        ((∀ j ≠ i, ∀ v, ¬ (s₁.calls j).Owes k v) → s.heard k = some s.broadcaster.resources) := by
  intro s
  refine ⟨?_, fun before i after hturns hlast => ?_⟩
  · have hstored (j : ι) : (s.calls j).hasStored = true := (Update.quiet_of_isReturned (hreturned j)).1
    obtain ⟨j⟩ := ‹Nonempty ι›
    obtain ⟨before, i, after, r, hturns, hlast⟩ := exists_storesLast turns ⟨j, rfl⟩ hstored
    obtain rfl : values i = r := Update.called.inj (called_of_run before hlast.1)
    exact ⟨before, i, after, hturns, hlast⟩
  · have hrun : (((fresh b values).run before).advance i).run after = s := by
      change _ = (fresh b values).run turns
      rw [hturns, run, run, run, List.foldl_append]
      rfl
    obtain ⟨hresources, ⟨j, v, hreported, hj⟩, hheard⟩ :=
      told_after_last_store hlast (hfits i) hrun hreturned hkept
    have hcall := (Settling.of_storesLast hlast (hfits i)).1
    refine ⟨hresources, ⟨j, v, hreported, hj⟩, fun hnone => ?_, fun k hk hopen => ?_⟩
    · obtain rfl : j = i := by
        by_contra hij
        rw [hnone j hij] at hj
        cases hj
      rw [hcall] at hj
      cases hj
      rw [hreported, hresources]
    · obtain ⟨j, v, hv, howes⟩ := hheard k hk hopen
      refine ⟨⟨j, v, hv, howes⟩, fun hnone => ?_⟩
      obtain rfl : j = i := by
        by_contra hij
        exact hnone j hij v howes
      rw [hcall] at howes
      obtain ⟨_, h, -⟩ | ⟨_, _, h, -⟩ := howes
      · cases h
        rw [hv, hresources]
      · cases h

/-- A broadcaster with one subscriber. -/
def oneSubscriber : Broadcaster :=
  (subscribe { resources := layersUsed 0 } 2).1

def twoValues (second : Bool) : Resources :=
  layersUsed (if second then 2 else 1)

/-- The first update has reported and sent when the second one stores. -/
def inTurn : List (Turn Bool) :=
  [.advance false, .advance false, .advance false, .advance true, .advance false, .advance true, .advance true,
    .advance true]

theorem last_stored_is_told_last_inTurn :
    (∀ j, (twoValues j).Fits) ∧
    let s := (fresh oneSubscriber twoValues).run inTurn
    (∀ j, (s.calls j).isReturned = true) ∧ s.hasLost = false ∧ s.broadcaster.isOpenAt 0 = true ∧
      s.broadcaster.resources = twoValues true ∧ s.reported = some s.broadcaster.resources ∧
      s.heard 0 = some s.broadcaster.resources := by
  dsimp only
  have hfits : ∀ j, (twoValues j).Fits := by decide
  have hreturned : ∀ j, (((fresh oneSubscriber twoValues).run inTurn).calls j).isReturned = true := by decide +kernel
  have hkept : ((fresh oneSubscriber twoValues).run inTurn).hasLost = false := by decide +kernel
  have hopen : ((fresh oneSubscriber twoValues).run inTurn).broadcaster.isOpenAt 0 = true := by decide +kernel
  have hlast : ((fresh oneSubscriber twoValues).run (inTurn.take 3)).StoresLast true (twoValues true) :=
    ⟨rfl, by decide +kernel⟩
  obtain ⟨-, hall⟩ := last_stored_is_told_last oneSubscriber hfits inTurn hreturned hkept
  obtain ⟨hresources, -, hreported, hheard⟩ := hall (inTurn.take 3) true (inTurn.drop 4) rfl hlast
  refine ⟨hfits, hreturned, hkept, hopen, hresources, hreported (by decide +kernel),
    (hheard 0 (by decide +kernel) hopen).2 fun j hj v => ?_⟩
  have hsent : (((fresh oneSubscriber twoValues).run (inTurn.take 3)).advance true).calls false =
      .sending (twoValues false) [] false := rfl
  obtain rfl : j = false := by simpa using hj
  rw [hsent]
  rintro (⟨_, h, -⟩ | ⟨_, _, h, hk⟩)
  · cases h
  · cases h
    cases hk

/-- The second update begins and ends while the first one has stored its value and told nobody. -/
def overtaking : List (Turn Bool) :=
  [.advance false, .advance true, .advance true, .advance true, .advance true, .advance false, .advance false,
    .advance false]

theorem overtaken_update_is_told_last :
    let s := (fresh oneSubscriber twoValues).run overtaking
    (∀ j, (twoValues j).Fits ∧ (s.calls j).isReturned = true) ∧ s.hasLost = false ∧
      s.broadcaster.subscribers = [0] ∧ s.broadcaster.isOpenAt 0 = true ∧ s.broadcaster.resources = twoValues true ∧
      s.reported = some (twoValues false) ∧ s.heard 0 = some (twoValues false) ∧ twoValues false ≠ twoValues true := by
  decide +kernel

end Overlap

end Broadcaster

end AgentMesh
