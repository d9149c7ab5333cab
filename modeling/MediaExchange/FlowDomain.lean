/-
  MediaExchange/FlowDomain.lean
  =============================
  **One domain, many instances: who creates, locks and removes a flow.**

  A domain is a directory; a flow lives in it under its id, and what the parties
  agree on is the lock on the flow's data file.  A writer has a shared `flock` on
  the file it writes for as long as it exists.  Everybody else decides by asking
  for an exclusive one without blocking: `releaseWriter`, whether it is the last
  writer and has to remove the flow; `mxlIsFlowActive` and `garbageCollect`,
  whether there is a writer at all.  The lock belongs to the file that was opened,
  the removal and the publication to the path, and between two system calls of one
  party any other may take its turn.

  The state is what the parties share (the files at the flows' paths and the
  kernel's table of open descriptions) and how far each party is.  An action is one
  system call of one party, with what the code does on its outcome:

    * `createFlowWriter` builds a flow in a temporary directory of its own, with a
      shared lock on the data file, and renames the directory to the flow's path
      unless something is there; then it opens and locks what is there instead;
    * `releaseWriter` converts the lock of the last reference to an exclusive one
      (drop the shared lock, try the exclusive one), removes what is at the flow's
      path if that was granted, and closes the data file;
    * a probe opens the data file at the path, tries the exclusive lock and closes
      the file; garbage collection then removes the path of an inactive flow.

  An instance runs one `createFlowWriter` or `releaseWriter` at a time (both hold
  `_mutex` throughout).  A file is named by the flow it was made for and a serial
  number no other file has, as an inode would be.  A flow's directory is removed in
  one step, and what the files contain does not matter here.
-/
import MediaExchange.Library.FileLocks
import MediaExchange.Library.LabelledRun

namespace MediaExchange.FlowDomain

open FileLocks

variable {ι φ τ : Type*}

/-! ### The parties -/

/-- A flow data file: the flow it was created for, and which of that flow's
    files it is. -/
structure DataFile (φ : Type*) where
  flow : φ
  serial : Nat
  deriving DecidableEq

/-- How far a `createFlowWriter` is.  `created`: the data file in its temporary
    directory is open; `prepared`: and locked; `published`: the directory is at the
    flow's path.  `refused`: the path was taken; `opened`: the data file found there
    is open; `locked`: and locked; `complete`: what belongs to it is open too. -/
inductive CreatePhase where
  | created
  | prepared
  | refused
  | opened
  | locked
  | published
  | complete
  deriving DecidableEq, Repr

/-- How far the `releaseWriter` of a last reference is.  `converting`: its shared
    lock is gone and the exclusive one not yet tried; `kept`: it was refused. -/
inductive ReleasePhase where
  | releasing
  | converting
  | exclusive
  | removed
  | kept
  deriving DecidableEq, Repr

/-- The call that holds an instance's mutex. -/
inductive Call (φ : Type*) where
  | create (x : φ) (phase : CreatePhase)
  | release (x : φ) (phase : ReleasePhase)
  deriving DecidableEq

/-- An instance: `_writers`, with the number of references of each, and the call
    that is being executed. -/
structure Instance (φ : Type*) where
  writers : φ → Option Nat
  call : Option (Call φ)

/-- The flow data an instance can have: what its `createFlowWriter` creates, what
    it opens instead, and what its writers keep. -/
inductive Handle (φ : Type*) where
  | flowData
  | existingFlowData
  | writer (x : φ)
  deriving DecidableEq

inductive ProbeKind where
  | isFlowActive
  | garbageCollect
  deriving DecidableEq, Repr

/-- `inactive`: the lock was granted; `condemned`: the flow was found inactive, the
    file is closed and the directory is about to be removed. -/
inductive ProbePhase where
  | opened
  | active
  | inactive
  | condemned
  deriving DecidableEq, Repr

structure Probe (φ : Type*) where
  flow : φ
  kind : ProbeKind
  phase : ProbePhase
  deriving DecidableEq

/-- Who has a description open. -/
inductive Owner (ι φ τ : Type*) where
  | ofInstance (i : ι) (h : Handle φ)
  | ofProbe (t : τ)
  deriving DecidableEq

/-! ### The state and the actions -/

structure State (ι φ τ : Type*) where
  /-- The serial number of the data file at each flow's path. -/
  published : φ → Option Nat
  nextFile : Nat
  files : FileTable (Owner ι φ τ) (DataFile φ)
  instances : ι → Instance φ
  probes : τ → Option (Probe φ)

/-- A domain in which some flows were left behind and nothing is running. -/
def State.initial (count : Nat) (published : φ → Option (Fin count)) : State ι φ τ where
  published x := (published x).map Fin.val
  nextFile := count
  files := .empty
  instances _ := { writers := fun _ => none, call := none }
  probes _ := none

inductive Action (ι φ τ : Type*) where
  | createTemporary (i : ι) (x : φ)
  | lockTemporary (i : ι) (x : φ)
  | publish (i : ι) (x : φ)
  | openExisting (i : ι) (x : φ)
  | lockExisting (i : ι) (x : φ)
  | openGrains (i : ι) (x : φ) (any : Bool)
  | abandon (i : ι) (x : φ)
  | register (i : ι) (x : φ)
  | releaseReference (i : ι) (x : φ)
  | dropLock (i : ι) (x : φ)
  | makeExclusive (i : ι) (x : φ)
  | deleteFlow (i : ι) (x : φ)
  | erase (i : ι) (x : φ)
  | openProbe (t : τ) (x : φ) (kind : ProbeKind)
  | lockProbe (t : τ) (x : φ)
  | closeProbe (t : τ) (x : φ)
  | removeInactive (t : τ) (x : φ)

namespace Action

/-- The steps of `createFlowWriter` and `releaseWriter`. -/
def ofWriters : Action ι φ τ → Bool
  | .openProbe _ _ _ | .lockProbe _ _ | .closeProbe _ _ | .removeInactive _ _ => false
  | _ => true

/-- The steps of `releaseWriter`. -/
def ofRelease : Action ι φ τ → Bool
  | .releaseReference _ _ | .dropLock _ _ | .makeExclusive _ _ | .deleteFlow _ _
  | .erase _ _ => true
  | _ => false

/-- The instance whose step it is, if it is not a probe's. -/
def byInstance : Action ι φ τ → Option ι
  | .createTemporary i _ | .lockTemporary i _ | .publish i _ | .openExisting i _
  | .lockExisting i _ | .openGrains i _ _ | .abandon i _ | .register i _
  | .releaseReference i _ | .dropLock i _ | .makeExclusive i _ | .deleteFlow i _
  | .erase i _ => some i
  | _ => none

/-- The probe whose step it is. -/
def byProbe : Action ι φ τ → Option τ
  | .openProbe t _ _ | .lockProbe t _ | .closeProbe t _ | .removeInactive t _ => some t
  | _ => none

theorem byProbe_of_ofRelease {a : Action ι φ τ} (h : a.ofRelease = true) : a.byProbe = none := by
  cases a <;> first | rfl | cases h

end Action

namespace State

variable [DecidableEq ι] [DecidableEq φ] [DecidableEq τ]

/-- The instance's call goes on to its next phase, or ends. -/
@[simp] def setCall (s : State ι φ τ) (i : ι) (c : Option (Call φ)) : State ι φ τ :=
  { s with instances := Function.update s.instances i { s.instances i with call := c } }

/-- The entry of one flow in the instance's `_writers`. -/
@[simp] def setWriter (s : State ι φ τ) (i : ι) (x : φ) (refs : Option Nat) : State ι φ τ :=
  { s with
    instances := Function.update s.instances i
      { s.instances i with writers := Function.update (s.instances i).writers x refs } }

@[simp] def setProbe (s : State ι φ τ) (t : τ) (p : Option (Probe φ)) : State ι φ τ :=
  { s with probes := Function.update s.probes t p }

@[simp] def close (s : State ι φ τ) (o : Owner ι φ τ) : State ι φ τ :=
  { s with files := s.files.close o }

/-- `remove_all` on the flow's directory. -/
@[simp] def unpublish (s : State ι φ τ) (x : φ) : State ι φ τ :=
  { s with published := Function.update s.published x none }

/-- An exception leaves `createFlowWriter`: what it opened is closed. -/
@[simp] def throwCreate (s : State ι φ τ) (i : ι) : State ι φ τ :=
  ((s.close (.ofInstance i .existingFlowData)).close (.ofInstance i .flowData)).setCall i none

end State

variable [DecidableEq ι] [DecidableEq φ] [DecidableEq τ]

/-! ### `createFlowWriter` -/

/-- `createTemporaryFlowDirectory`, and the `open` of `SharedMemoryBase` with
    `O_EXCL | O_CREAT`. -/
def createTemporary (s : State ι φ τ) (i : ι) (x : φ) : Option (State ι φ τ) :=
  if (s.instances i).call = none then
    some ({ s with
      nextFile := s.nextFile + 1
      files := s.files.openFile (.ofInstance i .flowData) ⟨x, s.nextFile⟩ }.setCall i
        (some (.create x .created)))
  else none

/-- `flock` with `LOCK_SH | LOCK_NB` on the new file. -/
def lockTemporary (s : State ι φ τ) (i : ι) (x : φ) : Option (State ι φ τ) :=
  if (s.instances i).call = some (.create x .created) then
    match s.files.tryLock (.ofInstance i .flowData) .shared with
    | some files => some ({ s with files := files }.setCall i (some (.create x .prepared)))
    | none => some (s.throwCreate i)
  else none

/-- `publishFlowDirectory`: `renameat2` with `RENAME_NOREPLACE`. -/
def publish (s : State ι φ τ) (i : ι) (x : φ) : Option (State ι φ τ) :=
  if (s.instances i).call = some (.create x .prepared) then
    match s.published x, s.files.get (.ofInstance i .flowData) with
    | none, some d =>
        some ({ s with published := Function.update s.published x (some d.file.serial) }.setCall i
          (some (.create x .published)))
    | _, _ => some (s.setCall i (some (.create x .refused)))
  else none

/-- `openFlow`: the `open` of `SharedMemoryBase`.  It throws if the flow is gone. -/
def openExisting (s : State ι φ τ) (i : ι) (x : φ) : Option (State ι φ τ) :=
  if (s.instances i).call = some (.create x .refused) then
    match s.published x with
    | some n =>
        some ({ s with files := s.files.openFile (.ofInstance i .existingFlowData) ⟨x, n⟩ }.setCall i
          (some (.create x .opened)))
    | none => some (s.throwCreate i)
  else none

/-- `flock` with `LOCK_SH | LOCK_NB` on the existing file. -/
def lockExisting (s : State ι φ τ) (i : ι) (x : φ) : Option (State ι φ τ) :=
  if (s.instances i).call = some (.create x .opened) then
    match s.files.tryLock (.ofInstance i .existingFlowData) .shared with
    | some files => some ({ s with files := files }.setCall i (some (.create x .locked)))
    | none => some (s.throwCreate i)
  else none

/-- `openDiscreteFlow` and `openContinuousFlow` open the grains or the channels by
    their paths, and throw if the directory is gone.  For a flow that has no grains
    (`any` is false) nothing is opened. -/
def openGrains (s : State ι φ τ) (i : ι) (x : φ) (any : Bool) : Option (State ι φ τ) :=
  if (s.instances i).call = some (.create x .locked) then
    if s.published x = none ∧ any = true then some (s.throwCreate i)
    else some (s.setCall i (some (.create x .complete)))
  else none

/-- The existing flow turns out to be unusable: its version is not supported, or its
    format is a different one. -/
def abandon (s : State ι φ τ) (i : ι) (x : φ) : Option (State ι φ τ) :=
  if (s.instances i).call = some (.create x .locked) ∨
      (s.instances i).call = some (.create x .complete) then
    some (s.throwCreate i)
  else none

/-- `createFlowWriter` returns.  A new writer takes the flow data; where `_writers`
    has one already, it gets a reference and the flow data is destroyed. -/
def register (s : State ι φ τ) (i : ι) (x : φ) (own : Handle φ) : State ι φ τ :=
  match (s.instances i).writers x with
  | some refs => (s.throwCreate i).setWriter i x (some (refs + 1))
  | none =>
      (({ s with files := s.files.move (.ofInstance i own) (.ofInstance i (.writer x)) }).throwCreate
        i).setWriter i x (some 1)

def returnWriter (s : State ι φ τ) (i : ι) (x : φ) : Option (State ι φ τ) :=
  if (s.instances i).call = some (.create x .published) then some (register s i x .flowData)
  else if (s.instances i).call = some (.create x .complete) then
    some (register s i x .existingFlowData)
  else none

/-! ### `releaseWriter` -/

/-- `releaseReference`; only the last one goes on. -/
def releaseReference (s : State ι φ τ) (i : ι) (x : φ) : Option (State ι φ τ) :=
  if (s.instances i).call = none then
    match (s.instances i).writers x with
    | some 1 => some ((s.setWriter i x (some 0)).setCall i (some (.release x .releasing)))
    | some (refs + 2) => some (s.setWriter i x (some (refs + 1)))
    | _ => none
  else none

/-- `makeExclusive`, the first half of the conversion. -/
def dropLock (s : State ι φ τ) (i : ι) (x : φ) : Option (State ι φ τ) :=
  if (s.instances i).call = some (.release x .releasing) then
    some ({ s with files := s.files.unlock (.ofInstance i (.writer x)) }.setCall i
      (some (.release x .converting)))
  else none

/-- `makeExclusive`, the second half. -/
def makeExclusive (s : State ι φ τ) (i : ι) (x : φ) : Option (State ι φ τ) :=
  if (s.instances i).call = some (.release x .converting) then
    match s.files.tryLock (.ofInstance i (.writer x)) .exclusive with
    | some files => some ({ s with files := files }.setCall i (some (.release x .exclusive)))
    | none => some (s.setCall i (some (.release x .kept)))
  else none

/-- `FlowManager::deleteFlow`: what is at the flow's path goes. -/
def deleteFlow (s : State ι φ τ) (i : ι) (x : φ) : Option (State ι φ τ) :=
  if (s.instances i).call = some (.release x .exclusive) then
    some ((s.unpublish x).setCall i (some (.release x .removed)))
  else none

/-- `_writers.erase`, and with it the destructor of the flow data. -/
def erase (s : State ι φ τ) (i : ι) (x : φ) : Option (State ι φ τ) :=
  if (s.instances i).call = some (.release x .removed) ∨
      (s.instances i).call = some (.release x .kept) then
    some (((s.close (.ofInstance i (.writer x))).setWriter i x none).setCall i none)
  else none

/-! ### `mxlIsFlowActive` and `garbageCollect` -/

/-- The `open` of a probe; there is nothing to do if the flow is not there. -/
def openProbe (s : State ι φ τ) (t : τ) (x : φ) (kind : ProbeKind) : Option (State ι φ τ) :=
  if s.probes t = none then
    match s.published x with
    | some n =>
        some ({ s with files := s.files.openFile (.ofProbe t) ⟨x, n⟩ }.setProbe t
          (some ⟨x, kind, .opened⟩))
    | none => some s
  else none

/-- `flock` with `LOCK_EX | LOCK_NB`: the flow is active if that fails. -/
def lockProbe (s : State ι φ τ) (t : τ) (x : φ) : Option (State ι φ τ) :=
  match s.probes t with
  | some ⟨y, kind, .opened⟩ =>
      if y = x then
        match s.files.tryLock (.ofProbe t) .exclusive with
        | some files => some ({ s with files := files }.setProbe t (some ⟨x, kind, .inactive⟩))
        | none => some (s.setProbe t (some ⟨x, kind, .active⟩))
      else none
  | _ => none

/-- `close`.  Garbage collection goes on with a flow it found inactive. -/
def closeProbe (s : State ι φ τ) (t : τ) (x : φ) : Option (State ι φ τ) :=
  if s.probes t = some ⟨x, .garbageCollect, .inactive⟩ then
    some ((s.close (.ofProbe t)).setProbe t (some ⟨x, .garbageCollect, .condemned⟩))
  else if s.probes t = some ⟨x, .isFlowActive, .inactive⟩ ∨
      s.probes t = some ⟨x, .isFlowActive, .active⟩ ∨
      s.probes t = some ⟨x, .garbageCollect, .active⟩ then
    some ((s.close (.ofProbe t)).setProbe t none)
  else none

/-- `remove_all` of `garbageCollect`. -/
def removeInactive (s : State ι φ τ) (t : τ) (x : φ) : Option (State ι φ τ) :=
  if s.probes t = some ⟨x, .garbageCollect, .condemned⟩ then
    some ((s.unpublish x).setProbe t none)
  else none

def step (s : State ι φ τ) : Action ι φ τ → Option (State ι φ τ)
  | .createTemporary i x => createTemporary s i x
  | .lockTemporary i x => lockTemporary s i x
  | .publish i x => publish s i x
  | .openExisting i x => openExisting s i x
  | .lockExisting i x => lockExisting s i x
  | .openGrains i x any => openGrains s i x any
  | .abandon i x => abandon s i x
  | .register i x => returnWriter s i x
  | .releaseReference i x => releaseReference s i x
  | .dropLock i x => dropLock s i x
  | .makeExclusive i x => makeExclusive s i x
  | .deleteFlow i x => deleteFlow s i x
  | .erase i x => erase s i x
  | .openProbe t x kind => openProbe s t x kind
  | .lockProbe t x => lockProbe s t x
  | .closeProbe t x => closeProbe s t x
  | .removeInactive t x => removeInactive s t x

/-! ### What a step does -/

section Steps

variable {s t : State ι φ τ} {i : ι} {u : τ} {x : φ} {a : Action ι φ τ}

theorem of_createTemporary (h : createTemporary s i x = some t) :
    (s.instances i).call = none ∧
      t = { s with
        nextFile := s.nextFile + 1
        files := s.files.openFile (.ofInstance i .flowData) ⟨x, s.nextFile⟩ }.setCall i
          (some (.create x .created)) := by
  simp only [createTemporary, Option.ite_none_right_eq_some, Option.some.injEq] at h
  exact ⟨h.1, h.2.symm⟩

theorem of_lockTemporary (h : lockTemporary s i x = some t) :
    (s.instances i).call = some (.create x .created) ∧
      ((∃ files, s.files.tryLock (.ofInstance i .flowData) .shared = some files ∧
          t = { s with files := files }.setCall i (some (.create x .prepared))) ∨
        t = s.throwCreate i) := by
  simp only [lockTemporary, Option.ite_none_right_eq_some] at h
  rcases h with ⟨hcall, h⟩
  refine ⟨hcall, ?_⟩
  split at h
  · rename_i files hlock
    exact Or.inl ⟨files, hlock, (Option.some.inj h).symm⟩
  · exact Or.inr (Option.some.inj h).symm

omit [DecidableEq τ] in
theorem of_publish (h : publish s i x = some t) :
    (s.instances i).call = some (.create x .prepared) ∧
      ((∃ d, s.published x = none ∧ s.files.get (.ofInstance i .flowData) = some d ∧
          t = { s with published := Function.update s.published x (some d.file.serial) }.setCall i
            (some (.create x .published))) ∨
        t = s.setCall i (some (.create x .refused))) := by
  simp only [publish, Option.ite_none_right_eq_some] at h
  rcases h with ⟨hcall, h⟩
  refine ⟨hcall, ?_⟩
  split at h
  · rename_i d hpub hget
    exact Or.inl ⟨d, hpub, hget, (Option.some.inj h).symm⟩
  · exact Or.inr (Option.some.inj h).symm

theorem of_openExisting (h : openExisting s i x = some t) :
    (s.instances i).call = some (.create x .refused) ∧
      ((∃ n, s.published x = some n ∧
          t = { s with
            files := s.files.openFile (.ofInstance i .existingFlowData) ⟨x, n⟩ }.setCall i
              (some (.create x .opened))) ∨
        t = s.throwCreate i) := by
  simp only [openExisting, Option.ite_none_right_eq_some] at h
  rcases h with ⟨hcall, h⟩
  refine ⟨hcall, ?_⟩
  split at h
  · rename_i n hpub
    exact Or.inl ⟨n, hpub, (Option.some.inj h).symm⟩
  · exact Or.inr (Option.some.inj h).symm

theorem of_lockExisting (h : lockExisting s i x = some t) :
    (s.instances i).call = some (.create x .opened) ∧
      ((∃ files, s.files.tryLock (.ofInstance i .existingFlowData) .shared = some files ∧
          t = { s with files := files }.setCall i (some (.create x .locked))) ∨
        s.files.tryLock (.ofInstance i .existingFlowData) .shared = none ∧
          t = s.throwCreate i) := by
  simp only [lockExisting, Option.ite_none_right_eq_some] at h
  rcases h with ⟨hcall, h⟩
  refine ⟨hcall, ?_⟩
  split at h
  · rename_i files hlock
    exact Or.inl ⟨files, hlock, (Option.some.inj h).symm⟩
  · rename_i hlock
    exact Or.inr ⟨hlock, (Option.some.inj h).symm⟩

theorem of_openGrains {any : Bool} (h : openGrains s i x any = some t) :
    (s.instances i).call = some (.create x .locked) ∧
      (t = s.throwCreate i ∨
        ¬ (s.published x = none ∧ any = true) ∧
          t = s.setCall i (some (.create x .complete))) := by
  simp only [openGrains, Option.ite_none_right_eq_some] at h
  rcases h with ⟨hcall, h⟩
  refine ⟨hcall, ?_⟩
  split at h
  · exact Or.inl (Option.some.inj h).symm
  · rename_i hthere
    exact Or.inr ⟨hthere, (Option.some.inj h).symm⟩

/-- `createFlowWriter` returns with its own flow data or with the existing one. -/
theorem of_abandon (h : abandon s i x = some t) :
    ((s.instances i).call = some (.create x .locked) ∨
        (s.instances i).call = some (.create x .complete)) ∧ t = s.throwCreate i := by
  simp only [abandon, Option.ite_none_right_eq_some, Option.some.injEq] at h
  exact ⟨h.1, h.2.symm⟩

theorem of_returnWriter (h : returnWriter s i x = some t) :
    ((s.instances i).call = some (.create x .published) ∧ t = register s i x .flowData) ∨
      ((s.instances i).call = some (.create x .complete) ∧
        t = register s i x .existingFlowData) := by
  unfold returnWriter at h
  split at h
  · rename_i hcall
    exact Or.inl ⟨hcall, (Option.some.inj h).symm⟩
  · simp only [Option.ite_none_right_eq_some, Option.some.injEq] at h
    exact Or.inr ⟨h.1, h.2.symm⟩

omit [DecidableEq τ] in
theorem of_releaseReference (h : releaseReference s i x = some t) :
    (s.instances i).call = none ∧
      (((s.instances i).writers x = some 1 ∧
          t = (s.setWriter i x (some 0)).setCall i (some (.release x .releasing))) ∨
        ∃ refs, (s.instances i).writers x = some (refs + 2) ∧
          t = s.setWriter i x (some (refs + 1))) := by
  simp only [releaseReference, Option.ite_none_right_eq_some] at h
  rcases h with ⟨hcall, h⟩
  refine ⟨hcall, ?_⟩
  split at h
  · rename_i hrefs
    exact Or.inl ⟨hrefs, (Option.some.inj h).symm⟩
  · rename_i refs hrefs
    exact Or.inr ⟨refs, hrefs, (Option.some.inj h).symm⟩
  · cases h

theorem of_dropLock (h : dropLock s i x = some t) :
    (s.instances i).call = some (.release x .releasing) ∧
      t = { s with files := s.files.unlock (.ofInstance i (.writer x)) }.setCall i
        (some (.release x .converting)) := by
  simp only [dropLock, Option.ite_none_right_eq_some, Option.some.injEq] at h
  exact ⟨h.1, h.2.symm⟩

theorem of_makeExclusive (h : makeExclusive s i x = some t) :
    (s.instances i).call = some (.release x .converting) ∧
      ((∃ files, s.files.tryLock (.ofInstance i (.writer x)) .exclusive = some files ∧
          t = { s with files := files }.setCall i (some (.release x .exclusive))) ∨
        s.files.tryLock (.ofInstance i (.writer x)) .exclusive = none ∧
          t = s.setCall i (some (.release x .kept))) := by
  simp only [makeExclusive, Option.ite_none_right_eq_some] at h
  rcases h with ⟨hcall, h⟩
  refine ⟨hcall, ?_⟩
  split at h
  · rename_i files hlock
    exact Or.inl ⟨files, hlock, (Option.some.inj h).symm⟩
  · rename_i hlock
    exact Or.inr ⟨hlock, (Option.some.inj h).symm⟩

omit [DecidableEq τ] in
theorem of_deleteFlow (h : deleteFlow s i x = some t) :
    (s.instances i).call = some (.release x .exclusive) ∧
      t = (s.unpublish x).setCall i (some (.release x .removed)) := by
  simp only [deleteFlow, Option.ite_none_right_eq_some, Option.some.injEq] at h
  exact ⟨h.1, h.2.symm⟩

theorem of_erase (h : erase s i x = some t) :
    ((s.instances i).call = some (.release x .removed) ∨
        (s.instances i).call = some (.release x .kept)) ∧
      t = ((s.close (.ofInstance i (.writer x))).setWriter i x none).setCall i none := by
  simp only [erase, Option.ite_none_right_eq_some, Option.some.injEq] at h
  exact ⟨h.1, h.2.symm⟩

theorem of_openProbe {kind : ProbeKind} (h : openProbe s u x kind = some t) :
    s.probes u = none ∧
      ((∃ n, s.published x = some n ∧
          t = { s with files := s.files.openFile (.ofProbe u) ⟨x, n⟩ }.setProbe u
            (some ⟨x, kind, .opened⟩)) ∨
        t = s) := by
  simp only [openProbe, Option.ite_none_right_eq_some] at h
  rcases h with ⟨hprobe, h⟩
  refine ⟨hprobe, ?_⟩
  split at h
  · rename_i n hpub
    exact Or.inl ⟨n, hpub, (Option.some.inj h).symm⟩
  · exact Or.inr (Option.some.inj h).symm

theorem of_lockProbe (h : lockProbe s u x = some t) :
    ∃ kind, s.probes u = some ⟨x, kind, .opened⟩ ∧
      ((∃ files, s.files.tryLock (.ofProbe u) .exclusive = some files ∧
          t = { s with files := files }.setProbe u (some ⟨x, kind, .inactive⟩)) ∨
        s.files.tryLock (.ofProbe u) .exclusive = none ∧
          t = s.setProbe u (some ⟨x, kind, .active⟩)) := by
  unfold lockProbe at h
  split at h
  · rename_i y kind hprobe
    simp only [Option.ite_none_right_eq_some] at h
    rcases h with ⟨rfl, h⟩
    refine ⟨kind, hprobe, ?_⟩
    split at h
    · rename_i files hlock
      exact Or.inl ⟨files, hlock, (Option.some.inj h).symm⟩
    · rename_i hlock
      exact Or.inr ⟨hlock, (Option.some.inj h).symm⟩
  · cases h

theorem of_closeProbe (h : closeProbe s u x = some t) :
    (s.probes u = some ⟨x, .garbageCollect, .inactive⟩ ∧
        t = (s.close (.ofProbe u)).setProbe u (some ⟨x, .garbageCollect, .condemned⟩)) ∨
      t = (s.close (.ofProbe u)).setProbe u none := by
  unfold closeProbe at h
  split at h
  · rename_i hprobe
    exact Or.inl ⟨hprobe, (Option.some.inj h).symm⟩
  · simp only [Option.ite_none_right_eq_some, Option.some.injEq] at h
    exact Or.inr h.2.symm

omit [DecidableEq ι] in
theorem of_removeInactive (h : removeInactive s u x = some t) :
    s.probes u = some ⟨x, .garbageCollect, .condemned⟩ ∧
      t = (s.unpublish x).setProbe u none := by
  simp only [removeInactive, Option.ite_none_right_eq_some, Option.some.injEq] at h
  exact ⟨h.1, h.2.symm⟩

/-- What the step of one party leaves alone: the other instances and probes, and
    what they have open. -/
structure LeavesOthers (a : Action ι φ τ) (s t : State ι φ τ) : Prop where
  instances : ∀ i, a.byInstance ≠ some i → t.instances i = s.instances i
  handles : ∀ i h, a.byInstance ≠ some i →
    t.files.get (.ofInstance i h) = s.files.get (.ofInstance i h)
  probes : ∀ u, a.byProbe ≠ some u → t.probes u = s.probes u
  descriptions : ∀ u, a.byProbe ≠ some u → t.files.get (.ofProbe u) = s.files.get (.ofProbe u)

omit [DecidableEq ι] [DecidableEq φ] [DecidableEq τ] in
theorem leavesOthers_of_instance (ha : a.byInstance = some i) (hprobes : t.probes = s.probes)
    (hinst : ∀ j, j ≠ i → t.instances j = s.instances j)
    (hfiles : ∀ o, (∀ h, o ≠ .ofInstance i h) → t.files.get o = s.files.get o) :
    LeavesOthers a s t where
  instances j hj := hinst j (by rintro rfl; exact hj ha)
  handles j h hj := hfiles _ (by rintro h' ⟨⟩; exact hj ha)
  probes u _ := by rw [hprobes]
  descriptions u _ := hfiles _ (by rintro h' ⟨⟩)

omit [DecidableEq ι] [DecidableEq φ] [DecidableEq τ] in
theorem leavesOthers_of_probe (ha : a.byProbe = some u) (hinst : t.instances = s.instances)
    (hprobes : ∀ v, v ≠ u → t.probes v = s.probes v)
    (hfiles : ∀ o, o ≠ .ofProbe u → t.files.get o = s.files.get o) :
    LeavesOthers a s t where
  instances i _ := by rw [hinst]
  handles i h _ := hfiles _ (by rintro ⟨⟩)
  probes v hv := hprobes v (by rintro rfl; exact hv ha)
  descriptions v hv := hfiles _ (by rintro ⟨⟩; exact hv ha)

theorem register_leavesOthers {own : Handle φ} :
    LeavesOthers (.register i x) s (register s i x own) := by
  unfold register
  split <;>
    (refine leavesOthers_of_instance rfl rfl ?_ ?_ <;> (intro o ho; simp [ho]))

theorem step_leavesOthers (h : step s a = some t) : LeavesOthers a s t := by
  cases a with
  | createTemporary i x =>
    rcases of_createTemporary h with ⟨-, rfl⟩
    refine leavesOthers_of_instance rfl rfl ?_ ?_ <;> (intro o ho; simp [ho])
  | lockTemporary i x =>
    rcases of_lockTemporary h with ⟨-, ⟨files, hlock, rfl⟩ | rfl⟩
    · refine leavesOthers_of_instance rfl rfl ?_ ?_ <;>
        (intro o ho; simp [ho, FileTable.get_of_tryLock hlock])
    · refine leavesOthers_of_instance rfl rfl ?_ ?_ <;> (intro o ho; simp [ho])
  | publish i x =>
    rcases of_publish h with ⟨-, ⟨d, -, -, rfl⟩ | rfl⟩ <;>
      (refine leavesOthers_of_instance rfl rfl ?_ ?_ <;> (intro o ho; simp [ho]))
  | openExisting i x =>
    rcases of_openExisting h with ⟨-, ⟨n, -, rfl⟩ | rfl⟩ <;>
      (refine leavesOthers_of_instance rfl rfl ?_ ?_ <;> (intro o ho; simp [ho]))
  | lockExisting i x =>
    rcases of_lockExisting h with ⟨-, ⟨files, hlock, rfl⟩ | ⟨-, rfl⟩⟩
    · refine leavesOthers_of_instance rfl rfl ?_ ?_ <;>
        (intro o ho; simp [ho, FileTable.get_of_tryLock hlock])
    · refine leavesOthers_of_instance rfl rfl ?_ ?_ <;> (intro o ho; simp [ho])
  | openGrains i x any =>
    rcases of_openGrains h with ⟨-, rfl | ⟨-, rfl⟩⟩ <;>
      (refine leavesOthers_of_instance rfl rfl ?_ ?_ <;> (intro o ho; simp [ho]))
  | abandon i x =>
    rcases of_abandon h with ⟨-, rfl⟩
    refine leavesOthers_of_instance rfl rfl ?_ ?_ <;> (intro o ho; simp [ho])
  | register i x =>
    rcases of_returnWriter h with ⟨-, rfl⟩ | ⟨-, rfl⟩
    · exact register_leavesOthers
    · exact register_leavesOthers
  | releaseReference i x =>
    rcases of_releaseReference h with ⟨-, ⟨-, rfl⟩ | ⟨refs, -, rfl⟩⟩ <;>
      (refine leavesOthers_of_instance rfl rfl ?_ ?_ <;> (intro o ho; simp [ho]))
  | dropLock i x =>
    rcases of_dropLock h with ⟨-, rfl⟩
    refine leavesOthers_of_instance rfl rfl ?_ ?_ <;> (intro o ho; simp [ho])
  | makeExclusive i x =>
    rcases of_makeExclusive h with ⟨-, ⟨files, hlock, rfl⟩ | ⟨-, rfl⟩⟩
    · refine leavesOthers_of_instance rfl rfl ?_ ?_ <;>
        (intro o ho; simp [ho, FileTable.get_of_tryLock hlock])
    · refine leavesOthers_of_instance rfl rfl ?_ ?_ <;> (intro o ho; simp [ho])
  | deleteFlow i x =>
    rcases of_deleteFlow h with ⟨-, rfl⟩
    refine leavesOthers_of_instance rfl rfl ?_ ?_ <;> (intro o ho; simp [ho])
  | erase i x =>
    rcases of_erase h with ⟨-, rfl⟩
    refine leavesOthers_of_instance rfl rfl ?_ ?_ <;> (intro o ho; simp [ho])
  | openProbe u x kind =>
    rcases of_openProbe h with ⟨-, ⟨n, -, rfl⟩ | rfl⟩ <;>
      (refine leavesOthers_of_probe rfl rfl ?_ ?_ <;> (intro o ho; simp [ho]))
  | lockProbe u x =>
    rcases of_lockProbe h with ⟨kind, -, ⟨files, hlock, rfl⟩ | ⟨-, rfl⟩⟩
    · refine leavesOthers_of_probe rfl rfl ?_ ?_ <;>
        (intro o ho; simp [ho, FileTable.get_of_tryLock hlock])
    · refine leavesOthers_of_probe rfl rfl ?_ ?_ <;> (intro o ho; simp [ho])
  | closeProbe u x =>
    rcases of_closeProbe h with ⟨-, rfl⟩ | rfl <;>
      (refine leavesOthers_of_probe rfl rfl ?_ ?_ <;> (intro o ho; simp [ho]))
  | removeInactive u x =>
    rcases of_removeInactive h with ⟨-, rfl⟩
    refine leavesOthers_of_probe rfl rfl ?_ ?_ <;> (intro o ho; simp [ho])

end Steps

end MediaExchange.FlowDomain
