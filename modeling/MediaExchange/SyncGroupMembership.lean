/-
  MediaExchange/SyncGroupMembership.lean
  ======================================
  **Who is in a synchronization group, and who comes first.**

  When a wait finds a flow slower than the first one of the group, its reader is
  meant to become the first.  `splice_after` moves the element behind the one it
  is given, so that the successor of the slow reader is moved instead, and where
  there is no successor the call is undefined.  `membership_iff` says exactly
  which sequences of calls get by without that.
-/
import MediaExchange.FlowSynchronizationGroup

namespace MediaExchange.SyncGroupMembership

open MediaExchange.LabelledRun MediaExchange.FlowSynchronizationGroup

variable {δ κ : Type*} [DecidableEq δ] [DecidableEq κ]

abbrev readersOf (entries : List (ListEntry δ κ)) : List (FlowReader δ κ) :=
  entries.map ListEntry.reader

/-- The list holds each member once and nothing else; a wait that returned
    `MXL_STATUS_OK` has looked at all of them; and the reader that last raised the
    maximum delay is the first of the list. -/
structure MembershipHolds (s : GroupSystem δ κ) : Prop where
  defined : s.call ≠ .undefinedBehaviour
  nodup : (readersOf s.call.entries).Nodup
  members : ∀ r, r ∈ readersOf s.call.entries ↔ s.members r = true
  examined : s.returned = some .statusOk → ∀ r, s.members r = true → r ∈ s.examined
  raiserFirst : ∀ r, s.raiser = some r → (readersOf s.call.entries).head? = some r

/-- A wait that takes the branch that relinks the list does so for a reader that is not
    the last one and does not raise the maximum, while the one that did has been
    removed. -/
def LeavesOrder (s : GroupSystem δ κ) : GroupAction δ κ → Prop
  | .attempt currentTaiTime _ _ =>
      match s.call with
      | .waiting passed current readers =>
          waitResult s.flows s.originTime current = .statusOk →
            Relinks s.originTime currentTaiTime passed current →
              readers ≠ [] ∧ ¬ Raises s.originTime currentTaiTime passed current readers ∧
                s.raiser = none
      | _ => True
  | _ => True

/-- The elements the walk has got past, `current` included. -/
def passedOf : Call δ κ → List (ListEntry δ κ)
  | .iterating passed _ => passed
  | .waiting passed current _ => passed ++ [current]
  | _ => []

structure MembershipInv (s : GroupSystem δ κ) : Prop where
  holds : MembershipHolds s
  passedExamined : ∀ r ∈ readersOf (passedOf s.call), r ∈ s.examined

/-! ### Adding and removing -/

theorem readersOf_addEntry (entry : ListEntry δ κ) {update : ListEntry δ κ → ListEntry δ κ}
    (hupdate : ∀ current, (update current).reader = current.reader)
    (entries : List (ListEntry δ κ)) :
    readersOf (addEntry entry update entries) =
      if entry.reader ∈ readersOf entries then readersOf entries
      else readersOf entries ++ [entry.reader] := by
  induction entries with
  | nil => simp [addEntry]
  | cons current entries ih =>
    by_cases hcurrent : current.reader = entry.reader
    · simp [addEntry, hcurrent, hupdate]
    · have hne : ¬ entry.reader = current.reader := fun h => hcurrent h.symm
      simp only [addEntry, if_neg hcurrent, List.map_cons, ih, List.mem_cons, hne, false_or]
      split <;> rfl

theorem readersOf_removeReader (reader : FlowReader δ κ) (entries : List (ListEntry δ κ)) :
    readersOf (removeReader reader entries) = (readersOf entries).erase reader := by
  induction entries with
  | nil => rfl
  | cons current entries ih =>
    by_cases hcurrent : current.reader = reader
    · simp [removeReader, hcurrent]
    · have hremove : removeReader reader (current :: entries) =
          current :: removeReader reader entries := by
        simp [removeReader, hcurrent]
      change _ = (current.reader :: readersOf entries).erase reader
      rw [hremove, List.erase_cons_tail (by simpa using hcurrent), ← ih]
      rfl

theorem membershipInv_add {s : GroupSystem δ κ} {readers : List (ListEntry δ κ)}
    (hs : MembershipInv s) (hcall : s.call = .idle readers) (entry : ListEntry δ κ)
    {update : ListEntry δ κ → ListEntry δ κ}
    (hupdate : ∀ current, (update current).reader = current.reader) :
    MembershipInv { s with call := .idle (addEntry entry update readers)
                           returned := none
                           members := Function.update s.members entry.reader true } := by
  have hnodup := hs.holds.nodup
  have hmembers := hs.holds.members
  have hfirst := hs.holds.raiserFirst
  rw [hcall] at hnodup hmembers hfirst
  have hreaders := readersOf_addEntry entry hupdate readers
  constructor
  · constructor
    · simp
    · change (readersOf (addEntry entry update readers)).Nodup
      rw [hreaders]
      split
      · exact hnodup
      · next hnew =>
        rw [List.nodup_append]
        refine ⟨hnodup, by simp, ?_⟩
        rintro r hr r' hr' rfl
        rw [List.mem_singleton] at hr'
        exact hnew (hr' ▸ hr)
    · intro r
      change r ∈ readersOf (addEntry entry update readers) ↔ _
      rw [hreaders]
      by_cases hr : r = entry.reader
      · subst hr
        refine iff_of_true ?_ (Function.update_self ..)
        split
        · next hold => exact hold
        · simp
      · simp only [Function.update_of_ne hr, ← hmembers r]
        split
        · exact Iff.rfl
        · simp [hr, Call.entries]
    · intro h
      cases h
    · intro r hr
      change (readersOf (addEntry entry update readers)).head? = some r
      have hhead : (readersOf readers).head? = some r := hfirst r hr
      rw [hreaders]
      split
      · exact hhead
      · rw [List.head?_append, hhead]
        rfl
  · intro r hr
    cases hr

theorem membershipInv_remove {s : GroupSystem δ κ} {readers : List (ListEntry δ κ)}
    (hs : MembershipInv s) (hcall : s.call = .idle readers) (reader : FlowReader δ κ) :
    MembershipInv { s with call := .idle (removeReader reader readers)
                           returned := none
                           members := Function.update s.members reader false
                           raiser := if s.raiser = some reader then none else s.raiser } := by
  have hnodup := hs.holds.nodup
  have hmembers := hs.holds.members
  have hfirst := hs.holds.raiserFirst
  rw [hcall] at hnodup hmembers hfirst
  change (readersOf readers).Nodup at hnodup
  have hreaders := readersOf_removeReader reader readers
  constructor
  · constructor
    · simp
    · change (readersOf (removeReader reader readers)).Nodup
      rw [hreaders]
      exact hnodup.erase reader
    · intro r
      change r ∈ readersOf (removeReader reader readers) ↔ _
      rw [hreaders, hnodup.mem_erase_iff]
      by_cases hr : r = reader
      · simp [hr]
      · simp only [Function.update_of_ne hr, ← hmembers r]
        simp [hr, Call.entries]
    · intro h
      cases h
    · intro r hr
      change (readersOf (removeReader reader readers)).head? = some r
      dsimp only at hr
      split at hr
      · cases hr
      · next hne =>
        have hhead : (readersOf readers).head? = some r := hfirst r hr
        have hrr : r ≠ reader := by
          rintro rfl
          exact hne hr
        rw [hreaders]
        cases hentries : readersOf readers with
        | nil => rw [hentries] at hhead; cases hhead
        | cons head tail =>
          rw [hentries] at hhead
          obtain rfl : head = r := Option.some.inj hhead
          rw [List.erase_cons_tail (by simpa using hrr)]
          rfl
  · intro r hr
    cases hr

/-! ### Walking -/

omit [DecidableEq δ] [DecidableEq κ] in
theorem membershipInv_of_readers {s t : GroupSystem δ κ} (hs : MembershipInv s)
    (hdefined : t.call ≠ .undefinedBehaviour)
    (hreaders : readersOf t.call.entries = readersOf s.call.entries)
    (hmembers : t.members = s.members) (hraiser : t.raiser = s.raiser)
    (hexamined : t.returned = some .statusOk → ∀ r ∈ readersOf t.call.entries, r ∈ t.examined)
    (hpassed : ∀ r ∈ readersOf (passedOf t.call), r ∈ t.examined) : MembershipInv t := by
  constructor
  · constructor
    · exact hdefined
    · rw [hreaders]
      exact hs.holds.nodup
    · rw [hreaders, hmembers]
      exact hs.holds.members
    · intro hreturned r hr
      apply hexamined hreturned
      rw [hreaders, hs.holds.members, ← hmembers]
      exact hr
    · rw [hreaders, hraiser]
      exact hs.holds.raiserFirst
  · exact hpassed

omit [DecidableEq δ] [DecidableEq κ] in
/-- A step that leaves the list in order and the walk at its start. -/
theorem membershipInv_of_passedOf_nil {s t : GroupSystem δ κ} (hs : MembershipInv s)
    (hdefined : t.call ≠ .undefinedBehaviour)
    (hreaders : readersOf t.call.entries = readersOf s.call.entries)
    (hmembers : t.members = s.members) (hraiser : t.raiser = s.raiser)
    (hreturned : t.returned ≠ some .statusOk) (hpassed : passedOf t.call = []) :
    MembershipInv t := by
  apply membershipInv_of_readers hs hdefined hreaders hmembers hraiser
  · intro h
    exact absurd h hreturned
  · rw [hpassed]
    exact List.forall_mem_nil _

theorem membershipInv_examine {rate : FlowReader δ κ → MxlRational} {s t : GroupSystem δ κ}
    (hs : MembershipInv s) (h : step rate s .examine = some t) : MembershipInv t := by
  have hpassed := hs.passedExamined
  cases stepped_of_step h with
  | finished passed hcall =>
    rw [hcall] at hpassed
    apply membershipInv_of_readers hs
    · simp
    · simp [hcall, Call.entries]
    · rfl
    · rfl
    · intro _ r hr
      exact hpassed r hr
    · intro r hr
      cases hr
  | examined passed readers current hcall =>
    rw [hcall] at hpassed
    have hnext : ∀ r ∈ readersOf (passed ++ [current]), r ∈ current.reader :: s.examined := by
      intro r hr
      rw [readersOf, List.map_append, List.mem_append] at hr
      rcases hr with hold | hnew
      · exact List.mem_cons_of_mem _ (hpassed r hold)
      · simp only [List.map_cons, List.map_nil, List.mem_singleton] at hnew
        rw [hnew]
        exact List.mem_cons_self
    apply membershipInv_of_readers hs
    · dsimp only
      split <;> simp
    · dsimp only
      split <;> simp [hcall, Call.entries]
    · rfl
    · rfl
    · intro hreturned
      cases hreturned
    · dsimp only
      split
      · exact hnext
      · exact hnext

omit [DecidableEq δ] [DecidableEq κ] in
theorem membershipInv_keepsOrder {s : GroupSystem δ κ} {currentTaiTime : Timepoint}
    {passed readers : List (ListEntry δ κ)} {current : ListEntry δ κ} (hs : MembershipInv s)
    (hcall : s.call = .waiting passed current readers)
    (hrelinks : ¬ Relinks s.originTime currentTaiTime passed current) (maximum : Int64) :
    MembershipInv { s with
      call := .iterating (passed ++ [{ current with maxObservedSourceDelay := maximum }]) readers
      returned := none
      raiser := if Raises s.originTime currentTaiTime passed current readers then
        some current.reader else s.raiser } := by
  have hpassed := hs.passedExamined
  have hnodup := hs.holds.nodup
  have hmembers := hs.holds.members
  have hfirst := hs.holds.raiserFirst
  rw [hcall] at hpassed hnodup hmembers hfirst
  have hreaders : readersOf ((passed ++ [{ current with maxObservedSourceDelay := maximum }]) ++
      readers) = readersOf (passed ++ current :: readers) := by
    simp [readersOf]
  constructor
  · constructor
    · simp
    · change (readersOf _).Nodup
      rw [Call.entries, hreaders]
      exact hnodup
    · intro r
      change r ∈ readersOf _ ↔ _
      rw [Call.entries, hreaders]
      exact hmembers r
    · intro h
      cases h
    · intro r hr
      change (readersOf _).head? = _
      rw [Call.entries, hreaders]
      dsimp only at hr
      split at hr
      · next hraises =>
        rw [passed_eq_nil_of_raises hrelinks hraises]
        exact hr
      · exact hfirst r hr
  · intro r hr
    apply hpassed r
    simpa [readersOf, passedOf] using hr

omit [DecidableEq δ] [DecidableEq κ] in
/-- A successful wait that moves a successor to the front while no reader claims that
    place. -/
theorem membershipInv_relinks {s : GroupSystem δ κ} {passed readers : List (ListEntry δ κ)}
    {current next : ListEntry δ κ} (hs : MembershipInv s)
    (hcall : s.call = .waiting passed current (next :: readers)) (hraiser : s.raiser = none)
    (maximum : Int64) :
    MembershipInv { s with
      call := spliceAfter passed { current with maxObservedSourceDelay := maximum }
        (next :: readers)
      returned := none } := by
  have hnodup := hs.holds.nodup
  have hmembers := hs.holds.members
  rw [hcall] at hnodup hmembers
  have hperm : (readersOf (next :: (passed ++
      { current with maxObservedSourceDelay := maximum } :: readers))).Perm
        (readersOf (passed ++ current :: next :: readers)) := by
    have hmoved : (next.reader :: ((readersOf passed ++ [current.reader]) ++
        readersOf readers)).Perm
          ((readersOf passed ++ [current.reader]) ++ next.reader :: readersOf readers) :=
      List.perm_middle.symm
    simpa [readersOf] using hmoved
  constructor
  · constructor
    · simp [spliceAfter]
    · exact hperm.nodup_iff.mpr hnodup
    · intro r
      exact (hperm.mem_iff).trans (hmembers r)
    · intro h
      cases h
    · intro r hr
      rw [hraiser] at hr
      cases hr
  · intro r hr
    cases hr

omit [DecidableEq δ] [DecidableEq κ] in
theorem membershipInv_afterWait {s : GroupSystem δ κ} {currentTaiTime : Timepoint}
    {passed readers : List (ListEntry δ κ)} {current : ListEntry δ κ} (hs : MembershipInv s)
    (hcall : s.call = .waiting passed current readers)
    (hkeep : Relinks s.originTime currentTaiTime passed current →
      readers ≠ [] ∧ ¬ Raises s.originTime currentTaiTime passed current readers ∧
        s.raiser = none) :
    MembershipInv { s with
      call := afterWait s.originTime currentTaiTime passed current readers
      returned := none
      raiser := if Raises s.originTime currentTaiTime passed current readers then
        some current.reader else s.raiser } := by
  by_cases hrelinks : Relinks s.originTime currentTaiTime passed current
  · obtain ⟨hbehind, hraises, hraiser⟩ := hkeep hrelinks
    obtain ⟨maximum, hafter⟩ := afterWait_of_relinks readers hrelinks
    rw [hafter, if_neg hraises]
    cases readers with
    | nil => exact absurd rfl hbehind
    | cons next readers => exact membershipInv_relinks hs hcall hraiser maximum
  · obtain ⟨maximum, hafter⟩ := afterWait_of_not_relinks readers hrelinks
    rw [hafter]
    exact membershipInv_keepsOrder hs hcall hrelinks maximum

theorem membershipInv_attempt {rate : FlowReader δ κ → MxlRational} {s t : GroupSystem δ κ}
    {currentTaiTime : Timepoint} {expired flowValid : Bool} (hs : MembershipInv s)
    (hkeep : LeavesOrder s (.attempt currentTaiTime expired flowValid))
    (h : step rate s (.attempt currentTaiTime expired flowValid) = some t) :
    MembershipInv t := by
  cases stepped_of_step h with
  | found _ _ _ passed readers current hcall hok =>
    simp only [LeavesOrder, hcall] at hkeep
    exact membershipInv_afterWait hs hcall (hkeep hok)
  | timedOut _ _ passed readers current hcall hearly =>
    apply membershipInv_of_passedOf_nil hs
    · simp
    · simp [hcall, Call.entries]
    · rfl
    · rfl
    · cases flowValid <;> simp
    · rfl
  | retries _ _ passed readers current hcall hearly =>
    apply membershipInv_of_readers hs
    · exact hs.holds.defined
    · rfl
    · rfl
    · rfl
    · intro hreturned
      cases hreturned
    · exact hs.passedExamined
  | failed _ _ _ passed readers current hcall hok hearly =>
    apply membershipInv_of_passedOf_nil hs
    · simp
    · simp [hcall, Call.entries]
    · rfl
    · rfl
    · intro hreturned
      exact hok (Option.some.inj hreturned)
    · rfl

theorem membershipInv_step {rate : FlowReader δ κ → MxlRational} {s t : GroupSystem δ κ}
    {a : GroupAction δ κ} (hs : MembershipInv s) (hkeep : LeavesOrder s a)
    (h : step rate s a = some t) : MembershipInv t := by
  cases stepped_of_step h with
  | addDiscreteReader r minValidSlices readers hcall =>
    exact membershipInv_add hs hcall
      { reader := .discrete r, minValidSlices := minValidSlices, grainRate := rate (.discrete r),
        maxObservedSourceDelay := 0 } fun _ => rfl
  | addContinuousReader r readers hcall =>
    exact membershipInv_add hs hcall
      { reader := .continuous r, minValidSlices := 0, grainRate := rate (.continuous r),
        maxObservedSourceDelay := 0 } fun _ => rfl
  | removeReader reader readers hcall => exact membershipInv_remove hs hcall reader
  | waitForDataAt originTime readers hcall =>
    apply membershipInv_of_passedOf_nil hs
    · simp
    · simp [hcall, Call.entries]
    · rfl
    · rfl
    · simp
    · rfl
  | finished | examined => exact membershipInv_examine hs h
  | found | timedOut | retries | failed => exact membershipInv_attempt hs hkeep h
  | evolve flows =>
    apply membershipInv_of_readers hs
    · exact hs.holds.defined
    · rfl
    · rfl
    · rfl
    · intro hreturned
      cases hreturned
    · exact hs.passedExamined

omit [DecidableEq δ] [DecidableEq κ] in
/-- A relinking puts the successor in front of a list in which the walk has got past the
    reader that should be there. -/
theorem not_first_of_relinks {s : GroupSystem δ κ} {passed readers : List (ListEntry δ κ)}
    {current current' next : ListEntry δ κ} {r : FlowReader δ κ} (hs : MembershipInv s)
    (hcall : s.call = .waiting passed current (next :: readers))
    (hr : r ∈ readersOf (passed ++ [current])) :
    (readersOf (spliceAfter passed current' (next :: readers)).entries).head? ≠ some r := by
  intro hhead
  obtain rfl : next.reader = r := by simpa [spliceAfter, Call.entries] using hhead
  have hsplit : readersOf (passed ++ current :: next :: readers) =
      readersOf (passed ++ [current]) ++ next.reader :: readersOf readers := by
    simp [readersOf]
  have hnodup := hs.holds.nodup
  rw [hcall, Call.entries, hsplit, List.nodup_append] at hnodup
  exact hnodup.2.2 _ hr _ List.mem_cons_self rfl

omit [DecidableEq δ] [DecidableEq κ] in
theorem first_mem_passed {passed readers : List (ListEntry δ κ)} {current : ListEntry δ κ}
    {r : FlowReader δ κ} (h : (readersOf (passed ++ current :: readers)).head? = some r) :
    r ∈ readersOf (passed ++ [current]) := by
  cases passed with
  | nil =>
    obtain rfl := Option.some.inj h
    simp [readersOf]
  | cons entry passed =>
    obtain rfl := Option.some.inj h
    simp [readersOf]

/-- A relinking that does not keep to `LeavesOrder` is of the last element, or puts
    another reader in front of the one that raised the maximum. -/
theorem not_membershipHolds_step {rate : FlowReader δ κ → MxlRational} {s t : GroupSystem δ κ}
    {a : GroupAction δ κ} (hs : MembershipInv s) (hbreak : ¬ LeavesOrder s a)
    (h : step rate s a = some t) : ¬ MembershipHolds t := by
  cases a with
  | attempt currentTaiTime expired flowValid =>
    simp only [LeavesOrder] at hbreak
    split at hbreak
    · next passed current readers hcall =>
      simp only [Classical.not_imp] at hbreak
      obtain ⟨hok, hrelinks, hbreak⟩ := hbreak
      simp only [step, hcall, hok, Option.some.injEq] at h
      subst h
      obtain ⟨maximum, hafter⟩ := afterWait_of_relinks readers hrelinks
      intro ht
      cases readers with
      | nil =>
        rw [hafter] at ht
        exact ht.defined rfl
      | cons next readers =>
        have hfirst := ht.raiserFirst
        rw [hafter] at hfirst
        by_cases hraises : Raises s.originTime currentTaiTime passed current (next :: readers)
        · have hcurrent := hfirst current.reader (if_pos hraises)
          exact not_first_of_relinks hs hcall (by simp [readersOf]) hcurrent
        · cases hraiser : s.raiser with
          | none => exact hbreak ⟨by simp, hraises, hraiser⟩
          | some r =>
            have hnew := hfirst r ((if_neg hraises).trans hraiser)
            have hold := hs.holds.raiserFirst r hraiser
            rw [hcall] at hold
            exact not_first_of_relinks hs hcall (first_mem_passed hold) hnew
    · exact absurd trivial hbreak
  | _ => exact absurd trivial hbreak

/-- **Group membership.**  For any sequence of calls on a group and any evolution of
    the flows: the list always holds the added and not removed readers once each,
    every wait that returns `MXL_STATUS_OK` has looked at all of them, and a reader
    that raised the maximum delay stays the first one, exactly when no wait relinks
    the list, unless it does so for a reader with a successor that raises no
    maximum while the reader that did is gone. -/
theorem membership_iff (rate : FlowReader δ κ → MxlRational) (flows : Flows δ κ)
    (actions : List (GroupAction δ κ)) :
    Throughout (step rate) MembershipHolds (.init flows) actions ↔
      Along (step rate) LeavesOrder (.init flows) actions := by
  apply throughout_iff_along (J := MembershipInv)
  · intro s hs
    exact hs.holds
  · intro s a t hs hkeep h
    exact membershipInv_step hs hkeep h
  · intro s a t hs hbreak h
    exact not_membershipHolds_step hs hbreak h
  · constructor
    · constructor
      · simp [GroupSystem.init]
      · exact List.nodup_nil
      · intro r
        simp [GroupSystem.init, Call.entries]
      · intro h
        cases h
      · intro r h
        cases h
    · intro r h
      cases h

/-- Three discrete flows with one grain a second, of which only number 1 may be behind
    grain 5. -/
def threeFlows (slowHead : UInt64) : Flows (Fin 3) Empty where
  discrete r :=
    (DiscreteFlowData.create ⟨4, 16, 1, by decide⟩ 0).storeHeadIndex (if r = 1 then slowHead else 5)
  continuous := Empty.elim

/-- A wait for second 5, in which flow number 1 is found behind, catches up, and is read
    at second 6. -/
def slowWait : List (GroupAction (Fin 3) Empty) :=
  [.waitForDataAt 5000000000, .examine, .examine, .evolve (threeFlows 5),
    .attempt 6000000000 false true]

/-- The slow reader raises the maximum; with a successor it is the successor that is
    moved to the front, without one the call is undefined. -/
theorem slow_reader_not_first :
    (∃ s, run (step fun _ => ⟨1, 1⟩) (.init (threeFlows 0))
        ([.addDiscreteReader 0 0, .addDiscreteReader 1 0, .addDiscreteReader 2 0] ++ slowWait) =
          some s ∧
      readersOf s.call.entries = [.discrete 2, .discrete 0, .discrete 1] ∧
      s.raiser = some (.discrete 1) ∧ ¬ MembershipHolds s) ∧
    ∃ s, run (step fun _ => ⟨1, 1⟩) (.init (threeFlows 0))
        ([.addDiscreteReader 0 0, .addDiscreteReader 1 0] ++ slowWait) = some s ∧
      s.call = .undefinedBehaviour ∧ ¬ MembershipHolds s := by
  refine ⟨⟨_, rfl, rfl, rfl, ?_⟩, _, rfl, rfl, ?_⟩
  · intro h
    have hfirst := h.raiserFirst _ rfl
    cases hfirst
  · intro h
    exact h.defined rfl

end MediaExchange.SyncGroupMembership
