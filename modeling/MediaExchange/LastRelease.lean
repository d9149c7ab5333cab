/-
  MediaExchange/LastRelease.lean
  ==============================
  **The last release removes the flow.**

  Every `releaseWriter` asks for the exclusive lock without waiting, and keeps the
  flow if it is refused.  It is refused only while somebody else has a lock on the
  data file; if that is another writer, that one is going to ask later.  So as long
  as a flow is at its path there is a party that has not asked yet, or has been
  granted the lock and not removed the flow yet (`Attended`), and the last of them
  removes it.  This rests on nothing but the locks: it holds through any steps of
  any party, except that a release must not be refused by a probe or by a
  `createFlowWriter` alone (`RefusedByWriters`), which do not ask in turn.

  Where all parties are releases, a flow is at its path until every holder has
  started its release, and is gone when all releases are done
  (`last_release_removes`).
-/
import MediaExchange.LiveWriters

namespace MediaExchange.FlowDomain

open FileLocks LabelledRun

variable {ι φ τ : Type*}

/-! ### Who is going to remove the flow -/

/-- Flow data whose party is going to ask for the exclusive lock, or is going to
    remove the flow. -/
@[simp] def Instance.Responsible (I : Instance φ) (x : φ) : Handle φ → Prop
  | .flowData => I.call = some (.create x .published)
  | .existingFlowData => False
  | .writer y => y = x ∧ (I.writers x).isSome = true ∧
      I.call ≠ some (.release x .removed) ∧ I.call ≠ some (.release x .kept)

/-- Whoever is not about to return a writer for a flow it has published is responsible
    as a writer. -/
theorem Instance.Responsible.writer {I : Instance φ} {x : φ} {h : Handle φ}
    (hresp : I.Responsible x h) (hcall : I.call ≠ some (.create x .published)) :
    h = .writer x ∧ (I.writers x).isSome = true ∧ I.call ≠ some (.release x .removed) ∧
      I.call ≠ some (.release x .kept) := by
  cases h with
  | flowData => exact absurd hresp hcall
  | existingFlowData => exact hresp.elim
  | writer y =>
    obtain ⟨rfl, hentry, hremoved, hkept⟩ := hresp
    exact ⟨rfl, hentry, hremoved, hkept⟩

/-- No release that has removed the flow still has its lock on this file. -/
def FreeOfRemoved (s : State ι φ τ) (x : φ) (f : DataFile φ) : Prop :=
  ∀ j, (s.instances j).call = some (.release x .removed) → ∀ g lock,
    s.files.get (.ofInstance j (.writer x)) = some ⟨g, lock⟩ → g ≠ f

/-- The flow is gone, or somebody is going to remove it. -/
def Attended (s : State ι φ τ) (x : φ) : Prop :=
  s.published x = none ∨ ∃ i h f lock, (s.instances i).Responsible x h ∧
    s.files.get (.ofInstance i h) = some ⟨f, lock⟩ ∧ FreeOfRemoved s x f

/-- Another instance's writer of the flow has a lock on the file. -/
def HeldByWriter (s : State ι φ τ) (i : ι) (x : φ) (f : DataFile φ) : Prop :=
  ∃ j, j ≠ i ∧ s.files.Holds (.ofInstance j (.writer x)) f

/-- A probe, or a `createFlowWriter` that has not returned, has a lock on the file. -/
def HeldByOther (s : State ι φ τ) (f : DataFile φ) : Prop :=
  (∃ u, s.files.Holds (.ofProbe u) f) ∨
    ∃ j, s.files.Holds (.ofInstance j .flowData) f ∨
      s.files.Holds (.ofInstance j .existingFlowData) f

/-- A release that finds the file locked by others than writers finds it locked by
    another writer as well. -/
def RefusedByWriters (s : State ι φ τ) : Action ι φ τ → Prop
  | .makeExclusive i x => ∀ d ∈ s.files.get (.ofInstance i (.writer x)),
      HeldByOther s d.file → HeldByWriter s i x d.file
  | _ => True

section Steps

variable [DecidableEq ι] [DecidableEq φ] [DecidableEq τ]
variable {s t : State ι φ τ} {i : ι} {u : τ} {x : φ} {a : Action ι φ τ}
variable {h : Handle φ} {f : DataFile φ}

omit [DecidableEq ι] [DecidableEq τ] in
/-- A lock of another owner keeps the file free of releases that have removed. -/
theorem freeOfRemoved_of_lock (hs : Consistent s) {o : Owner ι φ τ} {lock : LockMode}
    (hget : s.files.get o = some ⟨f, some lock⟩)
    (ho : ∀ j, (s.instances j).call = some (.release x .removed) →
      o ≠ .ofInstance j (.writer x)) : FreeOfRemoved s x f := by
  rintro j hcall g l hg rfl
  have hdesc := hs.descriptor (.ofInstance j (.writer x))
  simp [hg, hs.releasing j x _ hcall, hcall, kind] at hdesc
  obtain ⟨-, rfl⟩ := hdesc
  exact ho j hcall (s.files.eq_of_exclusive hg hget)

/-- A release has removed the flow only after `deleteFlow`. -/
theorem removed_step (hstep : step s a = some t)
    (hcall : (t.instances i).call = some (.release x .removed)) :
    ((s.instances i).call = some (.release x .removed) ∧
        t.files.get (.ofInstance i (.writer x)) = s.files.get (.ofInstance i (.writer x))) ∨
      a = .deleteFlow i x := by
  by_cases ha : a.byInstance = some i
  swap
  · have hleaves := step_leavesOthers hstep
    rw [hleaves.instances i ha] at hcall
    exact Or.inl ⟨hcall, hleaves.handles i _ ha⟩
  cases a with
  | createTemporary j y =>
    obtain rfl : j = i := Option.some.inj ha
    obtain ⟨-, rfl⟩ := of_createTemporary hstep
    simp at hcall
  | lockTemporary j y =>
    obtain rfl : j = i := Option.some.inj ha
    rcases of_lockTemporary hstep with ⟨-, ⟨files, hlock, rfl⟩ | rfl⟩ <;> simp at hcall
  | publish j y =>
    obtain rfl : j = i := Option.some.inj ha
    rcases of_publish hstep with ⟨-, ⟨d, -, -, rfl⟩ | rfl⟩ <;> simp at hcall
  | openExisting j y =>
    obtain rfl : j = i := Option.some.inj ha
    rcases of_openExisting hstep with ⟨-, ⟨n, -, rfl⟩ | rfl⟩ <;> simp at hcall
  | lockExisting j y =>
    obtain rfl : j = i := Option.some.inj ha
    rcases of_lockExisting hstep with ⟨-, ⟨files, hlock, rfl⟩ | ⟨-, rfl⟩⟩ <;> simp at hcall
  | openGrains j y any =>
    obtain rfl : j = i := Option.some.inj ha
    rcases of_openGrains hstep with ⟨-, rfl | ⟨-, rfl⟩⟩ <;> simp at hcall
  | abandon j y =>
    obtain rfl : j = i := Option.some.inj ha
    obtain ⟨-, rfl⟩ := of_abandon hstep
    simp at hcall
  | register j y =>
    obtain rfl : j = i := Option.some.inj ha
    have hend : ∀ own, ((register s j y own).instances j).call = none := by
      intro own
      unfold register
      split <;> simp
    rcases of_returnWriter hstep with ⟨-, rfl⟩ | ⟨-, rfl⟩ <;> simp [hend] at hcall
  | releaseReference j y =>
    obtain rfl : j = i := Option.some.inj ha
    rcases of_releaseReference hstep with ⟨hidle, ⟨-, rfl⟩ | ⟨refs, -, rfl⟩⟩ <;>
      simp [hidle] at hcall
  | dropLock j y =>
    obtain rfl : j = i := Option.some.inj ha
    obtain ⟨-, rfl⟩ := of_dropLock hstep
    simp at hcall
  | makeExclusive j y =>
    obtain rfl : j = i := Option.some.inj ha
    rcases of_makeExclusive hstep with ⟨-, ⟨files, -, rfl⟩ | ⟨-, rfl⟩⟩ <;> simp at hcall
  | deleteFlow j y =>
    obtain rfl : j = i := Option.some.inj ha
    obtain ⟨-, rfl⟩ := of_deleteFlow hstep
    simp at hcall
    exact Or.inr (by rw [hcall])
  | erase j y =>
    obtain rfl : j = i := Option.some.inj ha
    obtain ⟨-, rfl⟩ := of_erase hstep
    simp at hcall
  | openProbe v y k => cases ha
  | lockProbe v y => cases ha
  | closeProbe v y => cases ha
  | removeInactive v y => cases ha

theorem freeOfRemoved_step (hstep : step s a = some t) (hdel : ∀ j, a ≠ .deleteFlow j x)
    (hfree : FreeOfRemoved s x f) : FreeOfRemoved t x f := by
  intro j hcall g lock hget
  rcases removed_step hstep hcall with ⟨hcall', hsame⟩ | rfl
  · exact hfree j hcall' g lock (hsame ▸ hget)
  · exact absurd rfl (hdel j)

/-- The flow data of a party that is going to remove the flow, after a step: its
    own file, or one it has a lock on. -/
def StaysResponsible (t : State ι φ τ) (i : ι) (x : φ) (f : DataFile φ) : Prop :=
  ∃ h g lock, (t.instances i).Responsible x h ∧
    t.files.get (.ofInstance i h) = some ⟨g, lock⟩ ∧ (g = f ∨ ∃ m, lock = some m)

omit [DecidableEq ι] [DecidableEq φ] [DecidableEq τ] in
theorem stays_writer (lock : Option LockMode)
    (hentry : ((t.instances i).writers x).isSome = true)
    (hremoved : (t.instances i).call ≠ some (.release x .removed))
    (hkept : (t.instances i).call ≠ some (.release x .kept))
    (hget : t.files.get (.ofInstance i (.writer x)) = some ⟨f, lock⟩) :
    StaysResponsible t i x f :=
  ⟨.writer x, f, lock, ⟨rfl, hentry, hremoved, hkept⟩, hget, Or.inl rfl⟩

theorem responsible_throwCreate {y : φ} {phase : CreatePhase} {lock : Option LockMode}
    (hcall : (s.instances i).call = some (.create y phase)) (hphase : phase ≠ .published)
    (hresp : (s.instances i).Responsible x h)
    (hget : s.files.get (.ofInstance i h) = some ⟨f, lock⟩) :
    StaysResponsible (s.throwCreate i) i x f := by
  obtain ⟨rfl, hentry, -, -⟩ := hresp.writer (by simp [hcall, hphase])
  exact stays_writer lock (by simpa using hentry) (by simp) (by simp) (by simpa using hget)

theorem responsible_register (hs : Consistent s) {own : Handle φ} {y : φ} {phase : CreatePhase}
    {lock : Option LockMode}
    (hcall : (s.instances i).call = some (.create y phase))
    (hne : ∀ z, own ≠ .writer z)
    (hresp : (s.instances i).Responsible x h)
    (hown : h = .flowData → own = .flowData ∧ y = x)
    (hget : s.files.get (.ofInstance i h) = some ⟨f, lock⟩) :
    StaysResponsible (register s i y own) i x f := by
  cases h with
  | existingFlowData => cases hresp
  | flowData =>
    obtain ⟨rfl, rfl⟩ := hown rfl
    unfold register
    split
    · rename_i refs hrefs
      have hdesc : s.descriptor (.ofInstance i (.writer y)) = some (y, some .shared) := by
        simp [hrefs, hcall]
      obtain ⟨n, hget'⟩ := hs.get_of_descriptor hdesc
      exact ⟨.writer y, ⟨y, n⟩, some .shared, by simp, by simp [hget'], Or.inr ⟨_, rfl⟩⟩
    · exact ⟨.writer y, f, lock, by simp, by simp [hget], Or.inl rfl⟩
  | writer z =>
    obtain ⟨rfl, hentry, -, -⟩ := hresp
    obtain ⟨refs, hrefs⟩ := Option.isSome_iff_exists.mp hentry
    by_cases hzy : z = y
    · subst hzy
      refine ⟨.writer z, f, lock, ?_, ?_, Or.inl rfl⟩ <;> simp [register, hrefs, hget]
    · unfold register
      split
      · exact ⟨.writer z, f, lock, by simp [hzy, hrefs], by simp [hget], Or.inl rfl⟩
      · exact ⟨.writer z, f, lock, by simp [hzy, hrefs], by simp [hzy, Ne.symm (hne z), hget],
          Or.inl rfl⟩

/-- A party that is going to remove the flow goes on, unless it removes the flow or
    is refused the lock. -/
theorem responsible_step (hs : Consistent s) (hstep : step s a = some t)
    (hi : a.byInstance = some i) (hresp : (s.instances i).Responsible x h)
    {lock : Option LockMode} (hget : s.files.get (.ofInstance i h) = some ⟨f, lock⟩) :
    StaysResponsible t i x f ∨ a = .deleteFlow i x ∨
      (a = .makeExclusive i x ∧ h = .writer x ∧
        s.files.tryLock (.ofInstance i (.writer x)) .exclusive = none) := by
  cases a with
  | createTemporary j y =>
    obtain rfl : j = i := Option.some.inj hi
    obtain ⟨hcall, rfl⟩ := of_createTemporary hstep
    obtain ⟨rfl, hentry, -, -⟩ := hresp.writer (by simp [hcall])
    exact Or.inl (stays_writer lock (by simpa using hentry) (by simp) (by simp)
      (by simpa using hget))
  | lockTemporary j y =>
    obtain rfl : j = i := Option.some.inj hi
    rcases of_lockTemporary hstep with ⟨hcall, ⟨files, hlock, rfl⟩ | rfl⟩
    · obtain ⟨rfl, hentry, -, -⟩ := hresp.writer (by simp [hcall])
      exact Or.inl (stays_writer lock (by simpa using hentry) (by simp) (by simp)
        (by simpa [FileTable.get_of_tryLock hlock] using hget))
    · exact Or.inl (responsible_throwCreate hcall (by simp) hresp hget)
  | publish j y =>
    obtain rfl : j = i := Option.some.inj hi
    rcases of_publish hstep with ⟨hcall, ⟨d, -, -, rfl⟩ | rfl⟩
    · obtain ⟨rfl, hentry, -, -⟩ := hresp.writer (by simp [hcall])
      exact Or.inl (stays_writer lock (by simpa using hentry) (by simp) (by simp) hget)
    · obtain ⟨rfl, hentry, -, -⟩ := hresp.writer (by simp [hcall])
      exact Or.inl (stays_writer lock (by simpa using hentry) (by simp) (by simp) hget)
  | openExisting j y =>
    obtain rfl : j = i := Option.some.inj hi
    rcases of_openExisting hstep with ⟨hcall, ⟨n, -, rfl⟩ | rfl⟩
    · obtain ⟨rfl, hentry, -, -⟩ := hresp.writer (by simp [hcall])
      exact Or.inl (stays_writer lock (by simpa using hentry) (by simp) (by simp)
        (by simpa using hget))
    · exact Or.inl (responsible_throwCreate hcall (by simp) hresp hget)
  | lockExisting j y =>
    obtain rfl : j = i := Option.some.inj hi
    rcases of_lockExisting hstep with ⟨hcall, ⟨files, hlock, rfl⟩ | ⟨-, rfl⟩⟩
    · obtain ⟨rfl, hentry, -, -⟩ := hresp.writer (by simp [hcall])
      exact Or.inl (stays_writer lock (by simpa using hentry) (by simp) (by simp)
        (by simpa [FileTable.get_of_tryLock hlock] using hget))
    · exact Or.inl (responsible_throwCreate hcall (by simp) hresp hget)
  | openGrains j y any =>
    obtain rfl : j = i := Option.some.inj hi
    rcases of_openGrains hstep with ⟨hcall, rfl | ⟨-, rfl⟩⟩
    · exact Or.inl (responsible_throwCreate hcall (by simp) hresp hget)
    · obtain ⟨rfl, hentry, -, -⟩ := hresp.writer (by simp [hcall])
      exact Or.inl (stays_writer lock (by simpa using hentry) (by simp) (by simp) hget)
  | abandon j y =>
    obtain rfl : j = i := Option.some.inj hi
    obtain ⟨hcall, rfl⟩ := of_abandon hstep
    rcases hcall with hcall | hcall <;>
      exact Or.inl (responsible_throwCreate hcall (by simp) hresp hget)
  | register j y =>
    obtain rfl : j = i := Option.some.inj hi
    rcases of_returnWriter hstep with ⟨hcall, rfl⟩ | ⟨hcall, rfl⟩
    · refine Or.inl (responsible_register hs hcall (by simp) hresp ?_ hget)
      rintro rfl
      simpa [hcall] using hresp
    · refine Or.inl (responsible_register hs hcall (by simp) hresp ?_ hget)
      rintro rfl
      simp [hcall] at hresp
  | releaseReference j y =>
    obtain rfl : j = i := Option.some.inj hi
    rcases of_releaseReference hstep with ⟨hcall, ⟨hrefs, rfl⟩ | ⟨refs, hrefs, rfl⟩⟩
    · obtain ⟨rfl, hentry, -, -⟩ := hresp.writer (by simp [hcall])
      refine Or.inl (stays_writer lock ?_ (by simp) (by simp) hget)
      by_cases hxy : x = y <;> simp_all
    · obtain ⟨rfl, hentry, -, -⟩ := hresp.writer (by simp [hcall])
      refine Or.inl (stays_writer lock ?_ (by simp [hcall]) (by simp [hcall]) hget)
      by_cases hxy : x = y <;> simp_all
  | dropLock j y =>
    obtain rfl : j = i := Option.some.inj hi
    obtain ⟨hcall, rfl⟩ := of_dropLock hstep
    obtain ⟨rfl, hentry, -, -⟩ := hresp.writer (by simp [hcall])
    by_cases hxy : x = y
    · subst hxy
      exact Or.inl (stays_writer none (by simpa using hentry) (by simp) (by simp) (by simp [hget]))
    · exact Or.inl (stays_writer lock (by simpa using hentry) (by simp) (by simp)
        (by simp [hxy, hget]))
  | makeExclusive j y =>
    obtain rfl : j = i := Option.some.inj hi
    rcases of_makeExclusive hstep with ⟨hcall, ⟨files, hlock, rfl⟩ | ⟨hlock, rfl⟩⟩
    · obtain ⟨rfl, hentry, -, -⟩ := hresp.writer (by simp [hcall])
      by_cases hxy : x = y
      · subst hxy
        obtain ⟨d, hd, -, hget'⟩ := FileTable.of_tryLock_eq_some hlock
        rw [hget] at hd
        cases hd
        exact Or.inl (stays_writer (some .exclusive) (by simpa using hentry) (by simp) (by simp)
          (by simp [hget']))
      · exact Or.inl (stays_writer lock (by simpa using hentry) (by simp) (by simp)
          (by simpa [FileTable.get_of_tryLock hlock, hxy] using hget))
    · obtain ⟨rfl, hentry, -, -⟩ := hresp.writer (by simp [hcall])
      by_cases hxy : x = y
      · subst hxy
        exact Or.inr (Or.inr ⟨rfl, rfl, hlock⟩)
      · exact Or.inl (stays_writer lock (by simpa using hentry) (by simp) (by simp [Ne.symm hxy])
          hget)
  | deleteFlow j y =>
    obtain rfl : j = i := Option.some.inj hi
    obtain ⟨hcall, rfl⟩ := of_deleteFlow hstep
    by_cases hxy : x = y
    · exact Or.inr (Or.inl (by rw [hxy]))
    · obtain ⟨rfl, hentry, -, -⟩ := hresp.writer (by simp [hcall])
      exact Or.inl (stays_writer lock (by simpa using hentry) (by simp [Ne.symm hxy]) (by simp)
        hget)
  | erase j y =>
    obtain rfl : j = i := Option.some.inj hi
    obtain ⟨hcall, rfl⟩ := of_erase hstep
    have hnotCreate : (s.instances j).call ≠ some (.create x .published) := by
      rcases hcall with hcall | hcall <;> simp [hcall]
    obtain ⟨rfl, hentry, hremoved, hkept⟩ := hresp.writer hnotCreate
    have hxy : x ≠ y := by
      rintro rfl
      exact hcall.elim hremoved hkept
    exact Or.inl (stays_writer lock (by simpa [hxy] using hentry) (by simp) (by simp)
      (by simp [hxy, hget]))
  | openProbe v y k => cases hi
  | lockProbe v y => cases hi
  | closeProbe v y => cases hi
  | removeInactive v y => cases hi

/-- A refused release leaves the flow to another writer. -/
theorem responsible_of_refused (hs : Consistent s) (hcond : RefusedByWriters s (.makeExclusive i x))
    {lock : Option LockMode} (hget : s.files.get (.ofInstance i (.writer x)) = some ⟨f, lock⟩)
    (hfree : FreeOfRemoved s x f) (hflow : f.flow = x)
    (hrefused : s.files.tryLock (.ofInstance i (.writer x)) .exclusive = none) :
    ∃ j, j ≠ i ∧ (s.instances j).Responsible x (.writer x) ∧ ∃ lock',
      s.files.get (.ofInstance j (.writer x)) = some ⟨f, lock'⟩ := by
  obtain ⟨p, n, hp, hheld, -⟩ := (FileTable.tryLock_eq_none_iff hget).mp hrefused
  obtain ⟨j, hj, m, hheld⟩ : HeldByWriter s i x f := by
    cases p with
    | ofProbe u => exact hcond _ hget (Or.inl ⟨u, n, hheld⟩)
    | ofInstance j h =>
      cases h with
      | flowData => exact hcond _ hget (Or.inr ⟨j, Or.inl ⟨n, hheld⟩⟩)
      | existingFlowData => exact hcond _ hget (Or.inr ⟨j, Or.inr ⟨n, hheld⟩⟩)
      | writer y =>
        have hdesc := hs.descriptor_of_get hheld
        simp at hdesc
        obtain rfl : y = x := hdesc.2.1.trans hflow
        exact ⟨j, fun hji => hp (by rw [hji]), n, hheld⟩
  have hdesc := hs.descriptor_of_get hheld
  simp at hdesc
  obtain ⟨⟨refs, hrefs⟩, -, hlock⟩ := hdesc
  refine ⟨j, hj, ⟨rfl, by simp [hrefs], fun hremoved => ?_, fun hkept => ?_⟩, some m, hheld⟩
  · exact hfree j hremoved f (some m) hheld rfl
  · simp [hkept] at hlock

theorem published_deleteFlow (hstep : step s (.deleteFlow i x) = some t) :
    t.published x = none := by
  obtain ⟨-, rfl⟩ := of_deleteFlow hstep
  simp

theorem attended_publish (hs : Consistent s) (hnone : s.published x = none)
    (hstep : step s (.publish i x) = some t) : Attended t x := by
  have ht := consistent_step hs hstep
  rcases of_publish hstep with ⟨-, ⟨d, -, hget, rfl⟩ | rfl⟩
  · have hdesc := ht.descriptor (.ofInstance i .flowData)
    simp [hget, kind] at hdesc
    obtain ⟨-, hlock⟩ := hdesc
    have hget' : s.files.get (.ofInstance i .flowData) = some ⟨d.file, some .shared⟩ := by
      rw [hget, ← hlock]
    refine Or.inr ⟨i, .flowData, d.file, some .shared, by simp, hget', ?_⟩
    exact freeOfRemoved_of_lock ht hget' (by simp)
  · exact Or.inl hnone

/-- **A flow stays attended**: as long as it is at its path there is a party that is
    going to remove it, whatever step is taken by whom. -/
theorem attended_step (hs : Consistent s) (hcond : RefusedByWriters s a)
    (hstep : step s a = some t) (hatt : Attended s x) : Attended t x := by
  by_cases hgone : t.published x = none
  · exact Or.inl hgone
  have hdel : ∀ j, a ≠ .deleteFlow j x := by
    rintro j rfl
    exact hgone (published_deleteFlow hstep)
  rcases hatt with hnone | ⟨i, h, f, lock, hresp, hget, hfree⟩
  · rcases published_step hstep with hsame | ⟨j, y, n, rfl, -, hsame⟩ |
      ⟨j, y, rfl, -, hsame⟩ | ⟨u, y, rfl, -, hsame⟩
    · rw [hsame] at hgone
      exact absurd hnone hgone
    · by_cases hy : x = y
      · subst hy
        exact attended_publish hs hnone hstep
      · rw [hsame, Function.update_of_ne hy] at hgone
        exact absurd hnone hgone
    · exact absurd (by rw [hsame]; by_cases hy : x = y <;> simp [hy, hnone]) hgone
    · exact absurd (by rw [hsame]; by_cases hy : x = y <;> simp [hy, hnone]) hgone
  have hfree' := freeOfRemoved_step hstep hdel hfree
  have hleaves := step_leavesOthers hstep
  by_cases ha : a.byInstance = some i
  · rcases responsible_step hs hstep ha hresp hget with
      ⟨h', g, lock', hresp', hget', hg⟩ | hdelete | ⟨rfl, rfl, hrefused⟩
    · refine Or.inr ⟨i, h', g, lock', hresp', hget', ?_⟩
      rcases hg with rfl | ⟨m, rfl⟩
      · exact hfree'
      · refine freeOfRemoved_of_lock (consistent_step hs hstep) hget' ?_
        rintro j hcall ⟨⟩
        exact hresp'.2.2.1 hcall
    · exact absurd hdelete (hdel i)
    · -- refused: another writer has a lock on the file, and has not asked yet
      have hflow : f.flow = x := by
        have hdesc := hs.descriptor_of_get hget
        simp at hdesc
        exact hdesc.2.1.symm
      obtain ⟨j, hj, hrespj, lock', hgetj⟩ :=
        responsible_of_refused hs hcond hget hfree hflow hrefused
      have hne : (Action.makeExclusive i x : Action ι φ τ).byInstance ≠ some j := by
        simpa [Action.byInstance] using Ne.symm hj
      refine Or.inr ⟨j, .writer x, f, lock', ?_, ?_, hfree'⟩
      · rwa [hleaves.instances j hne]
      · rw [hleaves.handles j _ hne, hgetj]
  · refine Or.inr ⟨i, h, f, lock, ?_, ?_, hfree'⟩
    · rwa [hleaves.instances i ha]
    · rw [hleaves.handles i h ha, hget]

/-! ### Nothing but releases -/

/-- Any number of instances hold writers of the published flow, and nothing is under
    way. -/
structure Held (s : State ι φ τ) (x : φ) (n : Nat) : Prop where
  consistent : Consistent s
  published : s.published x = some n
  bound : ∀ i d, s.files.get (.ofInstance i (.writer x)) = some d → d.file = ⟨x, n⟩
  some_writer : ∃ i, ((s.instances i).writers x).isSome = true
  idle : ∀ i, (s.instances i).call = none
  unprobed : ∀ u, s.probes u = none

/-- What stays true while the instances release their writers: until all of them
    have started, no release has been granted the lock and the flow is there. -/
structure Releasing (s : State ι φ τ) (x : φ) (n : Nat) : Prop where
  consistent : Consistent s
  bound : ∀ i d, s.files.get (.ofInstance i (.writer x)) = some d → d.file = ⟨x, n⟩
  no_create : ∀ i y phase, (s.instances i).call ≠ some (.create y phase)
  unprobed : ∀ u, s.probes u = none
  attended : Attended s x
  last : s.published x = none ∨ (∃ i, (s.instances i).call = some (.release x .exclusive)) →
    ∀ j, ¬ (s.instances j).Live x

omit [DecidableEq ι] [DecidableEq τ] in
theorem Held.releasing {n : Nat} (hs : Held s x n) : Releasing s x n where
  consistent := hs.consistent
  bound := hs.bound
  no_create i y phase := by simp [hs.idle]
  unprobed := hs.unprobed
  attended := by
    obtain ⟨i, hentry⟩ := hs.some_writer
    obtain ⟨m, hget⟩ := hs.consistent.get_of_live (i := i) (x := x) ⟨hentry, by simp [hs.idle]⟩
    refine Or.inr ⟨i, .writer x, _, _, ?_, hget, ?_⟩
    · simp [hentry, hs.idle]
    · exact freeOfRemoved_of_lock hs.consistent hget (by simp [hs.idle])
  last := by
    rintro (hnone | ⟨i, hcall⟩)
    · simp [hs.published] at hnone
    · simp [hs.idle] at hcall

/-- A step of a release leaves every description on its file. -/
theorem file_of_release (hof : a.ofRelease = true) (hstep : step s a = some t)
    {o : Owner ι φ τ} {d : Description (DataFile φ)} (hget : t.files.get o = some d) :
    ∃ d', s.files.get o = some d' ∧ d'.file = d.file := by
  cases a with
  | releaseReference j y =>
    rcases of_releaseReference hstep with ⟨-, ⟨-, rfl⟩ | ⟨refs, -, rfl⟩⟩ <;> exact ⟨d, hget, rfl⟩
  | dropLock j y =>
    obtain ⟨-, rfl⟩ := of_dropLock hstep
    by_cases ho : o = .ofInstance j (.writer y)
    · subst ho
      simp at hget
      obtain ⟨d', hd', rfl⟩ := hget
      exact ⟨d', hd', rfl⟩
    · exact ⟨d, by simpa [ho] using hget, rfl⟩
  | makeExclusive j y =>
    rcases of_makeExclusive hstep with ⟨-, ⟨files, hlock, rfl⟩ | ⟨-, rfl⟩⟩
    · obtain ⟨e, he, -, hget'⟩ := FileTable.of_tryLock_eq_some hlock
      by_cases ho : o = .ofInstance j (.writer y)
      · subst ho
        simp [hget'] at hget
        exact ⟨e, he, by rw [← hget]⟩
      · exact ⟨d, by simpa [FileTable.get_of_tryLock hlock ho] using hget, rfl⟩
    · exact ⟨d, hget, rfl⟩
  | deleteFlow j y =>
    obtain ⟨-, rfl⟩ := of_deleteFlow hstep
    exact ⟨d, hget, rfl⟩
  | erase j y =>
    obtain ⟨-, rfl⟩ := of_erase hstep
    by_cases ho : o = .ofInstance j (.writer y)
    · subst ho
      simp at hget
    · exact ⟨d, by simpa [ho] using hget, rfl⟩
  | _ => cases hof

/-- A step of a release makes no writer, and starts no creation. -/
theorem instance_of_release (hof : a.ofRelease = true) (hstep : step s a = some t) (i : ι) :
    ((t.instances i).Live x → (s.instances i).Live x) ∧
      ∀ y phase, (t.instances i).call = some (.create y phase) →
        (s.instances i).call = some (.create y phase) := by
  by_cases ha : a.byInstance = some i
  swap
  · rw [(step_leavesOthers hstep).instances i ha]
    exact ⟨id, fun _ _ => id⟩
  cases a with
  | releaseReference j y =>
    obtain rfl : j = i := Option.some.inj ha
    rcases of_releaseReference hstep with ⟨hcall, ⟨hrefs, rfl⟩ | ⟨refs, hrefs, rfl⟩⟩
    · refine ⟨fun hlive => ?_, by simp⟩
      by_cases hx : x = y
      · simp [hx] at hlive
      · simpa [hcall, hx, Ne.symm hx] using hlive
    · refine ⟨fun hlive => ?_, by simp [hcall]⟩
      by_cases hx : x = y
      · simp [hx, hcall, hrefs]
      · simpa [hcall, hx] using hlive
  | dropLock j y =>
    obtain rfl : j = i := Option.some.inj ha
    obtain ⟨hcall, rfl⟩ := of_dropLock hstep
    refine ⟨fun hlive => ?_, by simp⟩
    simpa [hcall] using hlive
  | makeExclusive j y =>
    obtain rfl : j = i := Option.some.inj ha
    rcases of_makeExclusive hstep with ⟨hcall, ⟨files, -, rfl⟩ | ⟨-, rfl⟩⟩
    · exact ⟨fun hlive => by simpa [hcall] using hlive, by simp⟩
    · exact ⟨fun hlive => by simpa [hcall] using hlive, by simp⟩
  | deleteFlow j y =>
    obtain rfl : j = i := Option.some.inj ha
    obtain ⟨hcall, rfl⟩ := of_deleteFlow hstep
    exact ⟨fun hlive => by simpa [hcall] using hlive, by simp⟩
  | erase j y =>
    obtain rfl : j = i := Option.some.inj ha
    obtain ⟨hcall, rfl⟩ := of_erase hstep
    refine ⟨fun hlive => ?_, by simp⟩
    by_cases hx : x = y
    · simp [hx] at hlive
    · rcases hcall with hcall | hcall <;> simpa [hcall, hx, Ne.symm hx] using hlive
  | _ => cases hof

/-- A release gets to its exclusive phase by a lock that is granted. -/
theorem exclusive_of_release (hof : a.ofRelease = true) (hstep : step s a = some t)
    (hcall : (t.instances i).call = some (.release x .exclusive)) :
    (s.instances i).call = some (.release x .exclusive) ∨
      ((s.instances i).call = some (.release x .converting) ∧
        ∃ files, s.files.tryLock (.ofInstance i (.writer x)) .exclusive = some files) := by
  by_cases ha : a.byInstance = some i
  swap
  · rw [(step_leavesOthers hstep).instances i ha] at hcall
    exact Or.inl hcall
  cases a with
  | releaseReference j y =>
    obtain rfl : j = i := Option.some.inj ha
    rcases of_releaseReference hstep with ⟨hidle, ⟨-, rfl⟩ | ⟨refs, -, rfl⟩⟩ <;>
      simp [hidle] at hcall
  | dropLock j y =>
    obtain rfl : j = i := Option.some.inj ha
    obtain ⟨-, rfl⟩ := of_dropLock hstep
    simp at hcall
  | makeExclusive j y =>
    obtain rfl : j = i := Option.some.inj ha
    rcases of_makeExclusive hstep with ⟨hcall', ⟨files, hlock, rfl⟩ | ⟨-, rfl⟩⟩
    · simp at hcall
      subst hcall
      exact Or.inr ⟨hcall', files, hlock⟩
    · simp at hcall
  | deleteFlow j y =>
    obtain rfl : j = i := Option.some.inj ha
    obtain ⟨-, rfl⟩ := of_deleteFlow hstep
    simp at hcall
  | erase j y =>
    obtain rfl : j = i := Option.some.inj ha
    obtain ⟨-, rfl⟩ := of_erase hstep
    simp at hcall
  | _ => cases hof

/-- No lock is granted to a release, and no flow removed, before all live writers
    have started theirs. -/
theorem last_step {n : Nat} (hs : Releasing s x n) (hof : a.ofRelease = true)
    (hstep : step s a = some t)
    (hlast : t.published x = none ∨
      ∃ i, (t.instances i).call = some (.release x .exclusive)) (j : ι) :
    ¬ (t.instances j).Live x := by
  intro hlive
  have hlive' := (instance_of_release hof hstep j).1 hlive
  rcases hlast with hnone | ⟨i, hcall⟩
  · rcases published_step hstep with hsame | ⟨k, y, m, rfl, -, -⟩ |
      ⟨k, y, rfl, hcall, hsame⟩ | ⟨u, y, rfl, -, -⟩
    · rw [hsame] at hnone
      exact hs.last (Or.inl hnone) j hlive'
    · cases hof
    · by_cases hy : x = y
      · subst hy
        exact hs.last (Or.inr ⟨k, hcall⟩) j hlive'
      · rw [hsame, Function.update_of_ne hy] at hnone
        exact hs.last (Or.inl hnone) j hlive'
    · cases hof
  · rcases exclusive_of_release hof hstep hcall with hcall | ⟨hcall, files, hlock⟩
    · exact hs.last (Or.inr ⟨i, hcall⟩) j hlive'
    · -- the granted lock is on the file on which every live writer has one
      obtain ⟨d, hget, hfree, -⟩ := FileTable.of_tryLock_exclusive hlock
      obtain ⟨m, hget'⟩ := hs.consistent.get_of_live hlive'
      have hfile : d.file = ⟨x, m⟩ := (hs.bound i d hget).trans (hs.bound j _ hget').symm
      have hij : j ≠ i := by
        rintro rfl
        exact hlive'.2 _ hcall
      exact hfree (.ofInstance j (.writer x)) .shared (by simp [hij]) (hfile ▸ hget')

omit [DecidableEq ι] [DecidableEq τ] in
/-- Among releases only, nobody else has a lock on a data file. -/
theorem Releasing.not_heldByOther {n : Nat} (hs : Releasing s x n) : ¬ HeldByOther s f := by
  have hcalls : ∀ j, (s.instances j).descriptor .flowData = none ∧
      (s.instances j).descriptor .existingFlowData = none := by
    intro j
    rcases hcall : (s.instances j).call with _ | ⟨y, phase⟩ | ⟨y, phase⟩
    · simp [hcall]
    · exact absurd hcall (hs.no_create j y phase)
    · simp [hcall]
  rintro (⟨u, m, hget⟩ | ⟨j, ⟨m, hget⟩ | ⟨m, hget⟩⟩)
  · have hdesc := hs.consistent.descriptor_of_get hget
    simp [hs.unprobed] at hdesc
  · have hdesc := hs.consistent.descriptor_of_get hget
    rw [State.descriptor, (hcalls j).1] at hdesc
    cases hdesc
  · have hdesc := hs.consistent.descriptor_of_get hget
    rw [State.descriptor, (hcalls j).2] at hdesc
    cases hdesc

omit [DecidableEq ι] [DecidableEq τ] in
theorem Releasing.refusedByWriters {n : Nat} (hs : Releasing s x n) :
    RefusedByWriters s a := by
  cases a with
  | makeExclusive i y => exact fun d _ hother => absurd hother hs.not_heldByOther
  | _ => trivial

theorem releasing_step {n : Nat} (hs : Releasing s x n) (hof : a.ofRelease = true)
    (hstep : step s a = some t) : Releasing t x n where
  consistent := consistent_step hs.consistent hstep
  bound i d hget := by
    obtain ⟨d', hget', hfile⟩ := file_of_release hof hstep hget
    rw [← hfile]
    exact hs.bound i d' hget'
  no_create i y phase hcall :=
    hs.no_create i y phase ((instance_of_release (x := x) hof hstep i).2 y phase hcall)
  unprobed u := by
    have hprobe : a.byProbe ≠ some u := by simp [Action.byProbe_of_ofRelease hof]
    rw [(step_leavesOthers hstep).probes u hprobe, hs.unprobed]
  attended := attended_step hs.consistent hs.refusedByWriters hstep hs.attended
  last := last_step hs hof hstep

omit [DecidableEq ι] [DecidableEq τ] in
/-- With all writers gone, an attended flow is gone. -/
theorem Releasing.gone {n : Nat} (hs : Releasing s x n)
    (hall : ∀ i, (s.instances i).writers x = none) : s.published x = none := by
  rcases hs.attended with hnone | ⟨i, h, f, lock, hresp, -, -⟩
  · exact hnone
  · obtain ⟨-, hentry, -, -⟩ := hresp.writer (hs.no_create i x .published)
    simp [hall] at hentry

/-- **The last release removes the flow.**  However the releases of the writers of a
    flow interleave, the flow is not removed while one of its writers has not been
    released, and it is gone when all of them have been. -/
theorem last_release_removes {n : Nat} (hs : Held s x n) (as : List (Action ι φ τ))
    (hof : ∀ a ∈ as, a.ofRelease = true) (hrun : run step s as = some t) :
    (t.published x = none → ∀ i, ¬ (t.instances i).Live x) ∧
      ((∀ i, (t.instances i).writers x = none) → t.published x = none) := by
  have hof' : Along step (fun _ a => a.ofRelease = true) s as :=
    along_of_labels s fun a ha _ => hof a ha
  have hkeep : ∀ (s : State ι φ τ) a t, Releasing s x n → a.ofRelease = true →
      step s a = some t → Releasing t x n := fun s a t hs hof hstep => releasing_step hs hof hstep
  have ht : Releasing t x n := (throughout_of_along hkeep hs.releasing hof').last hrun
  exact ⟨fun hnone => ht.last (Or.inl hnone), ht.gone⟩

/-- Two instances hold a writer each: one has created the flow, one has opened it. -/
def twoHolders : State Bool Unit Empty :=
  (run step (State.initial 0 fun _ => none)
    [.createTemporary false (), .lockTemporary false (), .publish false (), .register false (),
      .createTemporary true (), .lockTemporary true (), .publish true (), .openExisting true (),
      .lockExisting true (), .openGrains true () true, .register true ()]).get rfl

theorem held_twoHolders : Held twoHolders () 0 where
  consistent := invariant_of_run (fun s a t hs h => consistent_step hs h)
    (consistent_initial 0 fun _ => none) (Option.some_get _).symm
  published := rfl
  bound i d h := by
    cases i <;> (obtain rfl := Option.some.inj h; rfl)
  some_writer := ⟨false, rfl⟩
  idle i := by cases i <;> rfl
  unprobed u := u.elim

/-- Both drop their shared locks before either asks for the exclusive one. -/
theorem last_release_removes_two :
    ∃ t, run step twoHolders
        [.releaseReference false (), .releaseReference true (), .dropLock false (),
          .dropLock true (), .makeExclusive false (), .makeExclusive true (), .erase true (),
          .deleteFlow false (), .erase false ()] = some t ∧
      (∀ i, (t.instances i).writers () = none) ∧ t.published () = none := by
  obtain ⟨t, hrun⟩ : ∃ t, run step twoHolders
      [.releaseReference false (), .releaseReference true (), .dropLock false (),
        .dropLock true (), .makeExclusive false (), .makeExclusive true (), .erase true (),
        .deleteFlow false (), .erase false ()] = some t := ⟨_, rfl⟩
  have hdone : ∀ i, (t.instances i).writers () = none := by
    obtain rfl := Option.some.inj hrun
    intro i
    cases i <;> rfl
  exact ⟨t, hrun, hdone, (last_release_removes held_twoHolders _ (by decide) hrun).2 hdone⟩

end Steps

end MediaExchange.FlowDomain
