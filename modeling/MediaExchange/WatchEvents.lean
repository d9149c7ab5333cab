/-
  MediaExchange/WatchEvents.lean
  ==============================
  **The events of the watcher, and the flows whose read time they set**
  (`DomainWatcher.cpp`, on Linux).

  A reader touches the access file of its flow with every grain.  The kernel queues an
  event with the descriptor of the file's watch, joined with the last one if that is the
  same, and the watcher's thread sets `lastReadTime` of the flow it finds in the map:
  of the first record `equal_range` gives it.  Where the descriptor is not in the map,
  that is the first record of the next larger one.

  A removed watch leaves its events in the queue (`inotify(7)`); a change of the link
  count is an event like a reader's.

  Main result: `attributed_iff_lands`.  Read times go to the flow whose file was touched
  if and only if no event is processed whose descriptor is gone while another flow has
  a larger one.
-/
import MediaExchange.DomainWatcher

namespace MediaExchange.WatchEvents

open MediaExchange.LabelledRun
open MediaExchange.DomainWatcher (Record State InStep emplace mem_emplace Added)

variable {ω φ : Type*} [DecidableEq ω] [DecidableEq φ]

/-! ### Events -/

inductive Mask where
  | access
  | attrib
  | ignored
deriving DecidableEq, Repr

/-- `mask & (IN_ACCESS | IN_MODIFY | IN_ATTRIB)`. -/
def Mask.accepted : Mask → Bool
  | .access | .attrib => true
  | .ignored => false

/-- `inotify_event`; the flow whose file was touched is a ghost. -/
structure Event (φ : Type*) where
  wd : Nat
  mask : Mask
  flow : Option φ
deriving DecidableEq

/-- `lastReadTime = time.value` for an event, through the mapping of a record. -/
structure Stamp (ω φ : Type*) where
  event : Event φ
  record : Record ω φ
  time : Nat

structure Watched (ω φ : Type*) where
  tables : State ω φ
  queue : List (Event φ)
  /-- The flow an inode was created for. -/
  owner : Nat → Option φ
  stamps : List (Stamp ω φ)

def Watched.initial : Watched ω φ :=
  { tables := .initial, queue := [], owner := fun _ => none, stamps := [] }

/-- The first of what `equal_range` gives. -/
def lowerBound (watches : List (Nat × Record ω φ)) (wd : Nat) : Option (Nat × Record ω φ) :=
  watches.find? fun e => wd ≤ e.1

def processEvent (watches : List (Nat × Record ω φ)) (time : Nat) (event : Event φ) :
    Option (Stamp ω φ) :=
  if event.mask.accepted then
    match lowerBound watches event.wd with
    | none => none
    | some it => some { event, record := it.2, time }
  else none

def processEventBuffer (watches : List (Nat × Record ω φ)) (time : Nat) (buffer : List (Event φ)) :
    List (Stamp ω φ) :=
  buffer.filterMap (processEvent watches time)

/-- An event goes to the end of the queue, unless the last one there is like it. -/
def enqueue (queue : List (Event φ)) (event : Event φ) : List (Event φ) :=
  match queue.getLast? with
  | some last => if last.wd = event.wd ∧ last.mask = event.mask then queue else queue ++ [event]
  | none => [event]

/-- The kernel's part when an inode is touched. -/
def notify (kernel : List (Nat × Nat)) (owner : Nat → Option φ) (queue : List (Event φ))
    (inode : Nat) : List (Event φ) :=
  match kernel.find? fun w => w.2 = inode with
  | none => queue
  | some w => enqueue queue { wd := w.1, mask := .attrib, flow := owner inode }

/-! ### Steps -/

inductive Action (ω φ : Type*) where
  | call (action : DomainWatcher.Action ω φ)
  | read (inode : Nat)
  | process (count time : Nat)

/-- A change of the tables is told to the queue: the link count of what is unlinked, and
    the watches that are gone. -/
def told (s : Watched ω φ) (t : State ω φ) : DomainWatcher.Action ω φ → List (Event φ)
  | .unlink id =>
      match s.tables.paths id with
      | none => s.queue
      | some inode => notify s.tables.kernel s.owner s.queue inode
  | _ => s.queue ++ (s.tables.kernel.filter fun w => w ∉ t.kernel).map fun w =>
      { wd := w.1, mask := .ignored, flow := none }

def owned (s : Watched ω φ) : DomainWatcher.Action ω φ → Nat → Option φ
  | .create id => Function.update s.owner s.tables.nextInode (some id)
  | _ => s.owner

def step (s : Watched ω φ) : Action ω φ → Option (Watched ω φ)
  | .call action =>
      match DomainWatcher.step s.tables action with
      | none => none
      | some tables =>
          some { s with tables, queue := told s tables action, owner := owned s action }
  | .read inode => some { s with queue := notify s.tables.kernel s.owner s.queue inode }
  | .process count time =>
      some { s with
        queue := s.queue.drop count
        stamps := s.stamps ++ processEventBuffer s.tables.watches time (s.queue.take count) }

/-- The tables are kept in step, and a new descriptor has no events waiting. -/
def Usage (s : Watched ω φ) : Action ω φ → Prop
  | .call action => InStep s.tables action ∧
      ∀ t, DomainWatcher.step s.tables action = some t → ∀ w ∈ t.kernel, w ∉ s.tables.kernel →
        ∀ event ∈ s.queue, event.wd ≠ w.1
  | _ => True

/-- What the events that are processed find: their descriptor, or the flow all the same
    under a larger one, or nothing. -/
def Lands (s : Watched ω φ) : Action ω φ → Prop
  | .process count _ => ∀ event ∈ s.queue.take count, event.mask.accepted = true →
      ∀ it, lowerBound s.tables.watches event.wd = some it →
        it.1 = event.wd ∨ event.flow = some it.2.id
  | _ => True

/-- Every read time was set in the flow whose file was touched. -/
def Attributed (s : Watched ω φ) : Prop :=
  ∀ stamp ∈ s.stamps, stamp.event.flow = some stamp.record.id

/-! ### The invariant -/

structure Invariant (s : Watched ω φ) : Prop where
  tables : DomainWatcher.Invariant s.tables
  /-- Paths lead to inodes that were created for their flow. -/
  paths : ∀ id inode, s.tables.paths id = some inode → s.owner inode = some id
  /-- A watch is of the flow that is registered under its descriptor. -/
  watched : ∀ w ∈ s.tables.kernel, ∀ e ∈ s.tables.watches, e.1 = w.1 → s.owner w.2 = some e.2.id
  /-- An event is of the flow that its descriptor's watch is of. -/
  queued : ∀ event ∈ s.queue, event.mask.accepted = true → ∀ w ∈ s.tables.kernel,
    w.1 = event.wd → s.owner w.2 = event.flow
  attributed : Attributed s

omit [DecidableEq ω] [DecidableEq φ] in
theorem invariant_initial : Invariant (Watched.initial : Watched ω φ) where
  tables := DomainWatcher.invariant_initial
  paths _ _ h := by cases h
  watched _ h := nomatch h
  queued _ h := nomatch h
  attributed _ h := nomatch h

section Steps

variable {s t : Watched ω φ}

omit [DecidableEq ω] [DecidableEq φ] in
/-- An event whose descriptor is registered is of the flow it is registered for. -/
theorem flow_of_registered (hs : Invariant s) {event : Event φ} (hevent : event ∈ s.queue)
    (haccepted : event.mask.accepted = true) {it : Nat × Record ω φ} (hit : it ∈ s.tables.watches)
    (hwd : it.1 = event.wd) : event.flow = some it.2.id := by
  obtain ⟨w, hw, hwwd⟩ := (hs.tables.keys event.wd).mpr ⟨it, hit, hwd⟩
  rw [← hs.queued event hevent haccepted w hw hwwd]
  exact hs.watched w hw it hit (hwd.trans hwwd.symm)

omit [DecidableEq ω] [DecidableEq φ] in
theorem lowerBound_mem {watches : List (Nat × Record ω φ)} {wd : Nat} {it : Nat × Record ω φ}
    (h : lowerBound watches wd = some it) : it ∈ watches := List.mem_of_find?_eq_some h

omit [DecidableEq ω] [DecidableEq φ] in
theorem mem_processEventBuffer {watches : List (Nat × Record ω φ)} {time : Nat}
    {buffer : List (Event φ)} {stamp : Stamp ω φ} :
    stamp ∈ processEventBuffer watches time buffer ↔ stamp.event ∈ buffer ∧
      stamp.event.mask.accepted = true ∧ stamp.time = time ∧
      ∃ it, lowerBound watches stamp.event.wd = some it ∧ stamp.record = it.2 := by
  unfold processEventBuffer
  rw [List.mem_filterMap]
  constructor
  · rintro ⟨event, hevent, h⟩
    unfold processEvent at h
    split at h
    · next haccepted =>
      split at h
      · cases h
      · next it hit =>
        obtain rfl := Option.some.inj h
        exact ⟨hevent, haccepted, rfl, it, hit, rfl⟩
    · cases h
  · rintro ⟨hevent, haccepted, rfl, it, hit, hrecord⟩
    refine ⟨stamp.event, hevent, ?_⟩
    simp only [processEvent, if_pos haccepted, hit, ← hrecord]

omit [DecidableEq φ] in
/-- What is in the queue was, or is the new event. -/
theorem mem_of_mem_enqueue {queue : List (Event φ)} {event new : Event φ}
    (h : event ∈ enqueue queue new) : event ∈ queue ∨ event = new := by
  unfold enqueue at h
  split at h
  · split at h
    · exact Or.inl h
    · simpa using h
  · exact Or.inr (by simpa using h)

omit [DecidableEq φ] in
theorem mem_of_mem_notify {kernel : List (Nat × Nat)} {owner : Nat → Option φ}
    {queue : List (Event φ)} {inode : Nat} {event : Event φ}
    (h : event ∈ notify kernel owner queue inode) :
    event ∈ queue ∨ (event.wd, inode) ∈ kernel ∧ event.flow = owner inode := by
  unfold notify at h
  split at h
  · exact Or.inl h
  · next w hfind =>
    rcases mem_of_mem_enqueue h with hold | rfl
    · exact Or.inl hold
    · have hinode : w.2 = inode := by simpa using List.find?_some hfind
      right
      rw [← hinode]
      exact ⟨List.mem_of_find?_eq_some hfind, rfl⟩

omit [DecidableEq ω] [DecidableEq φ] in
/-- An event of a touched inode is of the flow its watch is of. -/
theorem queued_notify (hs : Invariant s) {kernel : List (Nat × Nat)}
    (hkernel : ∀ w ∈ kernel, w ∈ s.tables.kernel) (inode : Nat) :
    ∀ event ∈ notify s.tables.kernel s.owner s.queue inode, event.mask.accepted = true →
      ∀ w ∈ kernel, w.1 = event.wd → s.owner w.2 = event.flow := by
  intro event hevent haccepted w hw hwd
  rcases mem_of_mem_notify hevent with hold | ⟨hmem, hflow⟩
  · exact hs.queued event hold haccepted w (hkernel w hw) hwd
  · rw [hflow, (hs.tables.oneInode w (hkernel w hw) _ hmem).mp hwd]

omit [DecidableEq ω] [DecidableEq φ] in
theorem invariant_read (hs : Invariant s) (inode : Nat) :
    Invariant { s with queue := notify s.tables.kernel s.owner s.queue inode } where
  tables := hs.tables
  paths := hs.paths
  watched := hs.watched
  queued := queued_notify hs (fun _ hw => hw) inode
  attributed := hs.attributed

omit [DecidableEq ω] [DecidableEq φ] in
theorem invariant_process (hs : Invariant s) {count time : Nat}
    (hlands : Lands s (.process count time)) :
    Invariant { s with
      queue := s.queue.drop count
      stamps := s.stamps ++ processEventBuffer s.tables.watches time (s.queue.take count) } where
  tables := hs.tables
  paths := hs.paths
  watched := hs.watched
  queued event hevent := hs.queued event (List.mem_of_mem_drop hevent)
  attributed := by
    intro stamp hstamp
    rcases List.mem_append.mp hstamp with hstamp | hstamp
    · exact hs.attributed stamp hstamp
    · obtain ⟨hevent, haccepted, -, it, hit, hrecord⟩ := mem_processEventBuffer.mp hstamp
      rw [hrecord]
      rcases hlands stamp.event hevent haccepted it hit with hwd | hflow
      · exact flow_of_registered hs (List.mem_of_mem_take hevent) haccepted (lowerBound_mem hit) hwd
      · exact hflow

/-! ### Calls and changes to the files -/

omit [DecidableEq ω] [DecidableEq φ] in
theorem mapped_false (tables : State ω φ) (wd : Nat) (record : Record ω φ) :
    (tables.mapped wd record false).watches = tables.watches := rfl

omit [DecidableEq ω] [DecidableEq φ] in
theorem mapped_true (tables : State ω φ) (wd : Nat) (record : Record ω φ) :
    (tables.mapped wd record true).watches = emplace wd record tables.watches := rfl

omit [DecidableEq ω] [DecidableEq φ] in
theorem mapped_kernel (tables : State ω φ) (wd : Nat) (record : Record ω φ) (opened : Bool) :
    (tables.mapped wd record opened).kernel = tables.kernel := by
  cases opened <;> rfl

omit [DecidableEq ω] [DecidableEq φ] in
theorem mapped_paths (tables : State ω φ) (wd : Nat) (record : Record ω φ) (opened : Bool) :
    (tables.mapped wd record opened).paths = tables.paths := by
  cases opened <;> rfl

omit [DecidableEq ω] [DecidableEq φ] in
/-- A record that is registered under a descriptor of its flow. -/
theorem watched_emplace (hs : Invariant s) {wd : Nat} {record : Record ω φ}
    (hwd : ∀ w ∈ s.tables.kernel, w.1 = wd → s.owner w.2 = some record.id) :
    ∀ w ∈ s.tables.kernel, ∀ e ∈ emplace wd record s.tables.watches, e.1 = w.1 →
      s.owner w.2 = some e.2.id := by
  intro w hw e he hkey
  rcases mem_emplace.mp he with rfl | he
  · exact hwd w hw hkey.symm
  · exact hs.watched w hw e he hkey

omit [DecidableEq ω] [DecidableEq φ] in
theorem watched_addFlow (hs : Invariant s) {writer : ω} {id : φ} {granted opened : Bool}
    {tables : State ω φ} (hadded : Added s.tables writer id granted opened tables) :
    tables.paths = s.tables.paths ∧
      ∀ w ∈ tables.kernel, ∀ e ∈ tables.watches, e.1 = w.1 → s.owner w.2 = some e.2.id := by
  cases hadded with
  | again wd hmem =>
    refine ⟨mapped_paths _ _ _ _, ?_⟩
    rw [mapped_kernel]
    cases opened with
    | false => exact hs.watched
    | true =>
      apply watched_emplace hs
      intro w hw hkey
      exact hs.watched w hw _ hmem hkey.symm
  | refused hnew hnot => exact ⟨rfl, hs.watched⟩
  | shared hnew hgranted inode wd hpath hwd =>
    refine ⟨mapped_paths _ _ _ _, ?_⟩
    rw [mapped_kernel]
    cases opened with
    | false => exact hs.watched
    | true =>
      apply watched_emplace hs
      intro w hw hkey
      rw [(hs.tables.oneInode w hw _ hwd).mp hkey]
      exact hs.paths id inode hpath
  | watched hnew hgranted inode wd hpath hinode hwd =>
    refine ⟨mapped_paths _ _ _ _, ?_⟩
    rw [mapped_kernel]
    have hnokey := hs.tables.key_ne hwd
    intro w hw e he hkey
    rcases List.mem_cons.mp hw with rfl | hw
    · -- the new watch has the new record only
      cases opened with
      | false => exact absurd hkey (hnokey e he)
      | true =>
        rcases mem_emplace.mp he with rfl | he
        · exact hs.paths id inode hpath
        · exact absurd hkey (hnokey e he)
    · cases opened with
      | false => exact hs.watched w hw e he hkey
      | true =>
        rcases mem_emplace.mp he with rfl | he
        · exact absurd hkey.symm (hwd w hw)
        · exact hs.watched w hw e he hkey

theorem watched_removeFlow (hs : Invariant s) (writer : ω) (id : φ) :
    (DomainWatcher.removeFlow s.tables writer id).paths = s.tables.paths ∧
      ∀ w ∈ (DomainWatcher.removeFlow s.tables writer id).kernel,
        ∀ e ∈ (DomainWatcher.removeFlow s.tables writer id).watches, e.1 = w.1 →
          s.owner w.2 = some e.2.id := by
  unfold DomainWatcher.removeFlow
  split
  · exact ⟨rfl, hs.watched⟩
  · next it hfind =>
    refine ⟨rfl, fun w hw e he hkey => ?_⟩
    apply hs.watched w _ e (List.mem_of_mem_eraseP he) hkey
    dsimp only at hw
    split at hw
    · exact hw
    · exact List.mem_of_mem_filter hw

omit [DecidableEq ω] [DecidableEq φ] in
/-- What the queue is told of a call is of the flows the watches are of. -/
theorem queued_told (hs : Invariant s) (action : DomainWatcher.Action ω φ) {tables : State ω φ}
    (hfresh : ∀ w ∈ tables.kernel, w ∉ s.tables.kernel → ∀ event ∈ s.queue, event.wd ≠ w.1)
    (hunlink : ∀ id, action = .unlink id → tables.kernel = s.tables.kernel) :
    ∀ event ∈ told s tables action, event.mask.accepted = true → ∀ w ∈ tables.kernel,
      w.1 = event.wd → s.owner w.2 = event.flow := by
  have hold : ∀ event ∈ s.queue, event.mask.accepted = true → ∀ w ∈ tables.kernel,
      w.1 = event.wd → s.owner w.2 = event.flow := by
    intro event hevent haccepted w hw hkey
    by_cases hknown : w ∈ s.tables.kernel
    · exact hs.queued event hevent haccepted w hknown hkey
    · exact absurd hkey.symm (hfresh w hw hknown event hevent)
  have hdropped : ∀ event ∈ s.queue ++ (s.tables.kernel.filter fun w => w ∉ tables.kernel).map
      (fun w => ({ wd := w.1, mask := .ignored, flow := none } : Event φ)),
      event.mask.accepted = true → ∀ w ∈ tables.kernel, w.1 = event.wd →
        s.owner w.2 = event.flow := by
    intro event hevent haccepted
    rcases List.mem_append.mp hevent with hevent | hevent
    · exact hold event hevent haccepted
    · obtain ⟨w, -, rfl⟩ := List.mem_map.mp hevent
      cases haccepted
  cases action with
  | unlink id =>
    have hkernel := hunlink id rfl
    intro event hevent haccepted
    simp only [told] at hevent
    split at hevent
    · exact hold event hevent haccepted
    · rw [hkernel]
      exact queued_notify hs (fun _ hw => hw) _ event hevent haccepted
  | addFlow writer id granted fresh opened => exact hdropped
  | removeFlow writer id => exact hdropped
  | create id => exact hdropped
  | free inode => exact hdropped

theorem invariant_call (hs : Invariant s) {action : DomainWatcher.Action ω φ} {tables : State ω φ}
    (husage : Usage s (.call action)) (hstep : DomainWatcher.step s.tables action = some tables) :
    Invariant { s with tables, queue := told s tables action, owner := owned s action } := by
  obtain ⟨hin, hall⟩ := husage
  have htables := DomainWatcher.invariant_step hs.tables hin hstep
  have hfresh := hall tables hstep
  clear hall
  cases action with
  | addFlow writer id granted fresh opened =>
    obtain ⟨hpaths, hwatched⟩ := watched_addFlow hs (DomainWatcher.added_of_addFlow hstep)
    refine ⟨htables, ?_, hwatched, ?_, hs.attributed⟩
    · change ∀ id inode, tables.paths id = some inode → s.owner inode = some id
      rw [hpaths]
      exact hs.paths
    · exact queued_told hs (.addFlow writer id granted fresh opened) hfresh (fun _ h => by cases h)
  | removeFlow writer id =>
    obtain rfl := Option.some.inj hstep
    obtain ⟨hpaths, hwatched⟩ := watched_removeFlow hs writer id
    refine ⟨htables, ?_, hwatched, ?_, hs.attributed⟩
    · change ∀ id' inode, (DomainWatcher.removeFlow s.tables writer id).paths id' = some inode →
        s.owner inode = some id'
      rw [hpaths]
      exact hs.paths
    · exact queued_told hs (.removeFlow writer id) hfresh (fun _ h => by cases h)
  | create id =>
    simp only [DomainWatcher.step] at hstep
    split at hstep
    · cases hstep
    · obtain rfl := Option.some.inj hstep
      -- the new inode has no watch yet
      have howner : ∀ w ∈ s.tables.kernel,
          owned s (.create id) w.2 = s.owner w.2 := fun w hw =>
        Function.update_of_ne (Nat.ne_of_lt (hs.tables.numbered.1 w hw)) _ _
      refine ⟨htables, ?_, ?_, ?_, hs.attributed⟩
      · intro id' inode hpath
        rcases DomainWatcher.update_eq_some hpath with ⟨rfl, rfl⟩ | ⟨-, hpath⟩
        · exact Function.update_self ..
        · have hlt := hs.tables.numbered.2 id' inode hpath
          change Function.update s.owner s.tables.nextInode (some id) inode = some id'
          rw [Function.update_of_ne (Nat.ne_of_lt hlt)]
          exact hs.paths id' inode hpath
      · intro w hw e he hkey
        exact (howner w hw).trans (hs.watched w hw e he hkey)
      · intro event hevent haccepted w hw hkey
        have hflow := queued_told hs (.create id) hfresh (fun _ h => by cases h) event hevent haccepted w hw hkey
        exact (howner w hw).trans hflow
  | unlink id =>
    simp only [DomainWatcher.step] at hstep
    split at hstep
    · cases hstep
    · obtain rfl := Option.some.inj hstep
      refine ⟨htables, ?_, hs.watched, queued_told hs (.unlink id) hfresh fun _ _ => rfl, hs.attributed⟩
      intro id' inode hpath
      change Function.update s.tables.paths id none id' = some inode at hpath
      by_cases hid : id' = id
      · subst hid
        rw [Function.update_self] at hpath
        cases hpath
      · rw [Function.update_of_ne hid] at hpath
        exact hs.paths id' inode hpath
  | free inode =>
    obtain ⟨-, heq⟩ := Option.ite_none_right_eq_some.mp hstep
    obtain rfl := Option.some.inj heq
    refine ⟨htables, hs.paths, ?_, queued_told hs (.free inode) hfresh (fun _ h => by cases h),
      hs.attributed⟩
    intro w hw
    exact hs.watched w (List.mem_of_mem_filter hw)

theorem invariant_step {action : Action ω φ} (hs : Invariant s) (husage : Usage s action)
    (hlands : Lands s action) (h : step s action = some t) : Invariant t := by
  cases action with
  | call action =>
    simp only [step] at h
    split at h
    · cases h
    · next tables hstep =>
      obtain rfl := Option.some.inj h
      exact invariant_call hs husage hstep
  | read inode =>
    obtain rfl := Option.some.inj h
    exact invariant_read hs inode
  | process count time =>
    obtain rfl := Option.some.inj h
    exact invariant_process hs hlands

/-- An event that lands elsewhere sets the read time of a flow nobody touched. -/
theorem not_attributed_step {action : Action ω φ} (hlands : ¬Lands s action)
    (h : step s action = some t) : ¬Attributed t := by
  cases action with
  | process count time =>
    obtain rfl := Option.some.inj h
    simp only [Lands, not_forall, not_or] at hlands
    obtain ⟨event, hevent, haccepted, it, hit, -, hflow⟩ := hlands
    intro hattributed
    apply hflow
    have hstamp : ({ event, record := it.2, time } : Stamp ω φ) ∈
        processEventBuffer s.tables.watches time (s.queue.take count) :=
      mem_processEventBuffer.mpr ⟨hevent, haccepted, rfl, it, hit, rfl⟩
    exact hattributed _ (List.mem_append_right _ hstamp)
  | _ => exact absurd trivial hlands

end Steps

section Example

instance (s : State Nat Bool) (a : DomainWatcher.Action Nat Bool) : Decidable (InStep s a) :=
  match a with
  | .addFlow writer id granted _ opened =>
      decidable_of_iff ((∃ e ∈ s.watches, e.2 = ⟨id, writer⟩) ∨ (granted = true →
        ∀ inode ∈ s.paths id,
          if opened then ∀ e ∈ s.watches, e.2.id = id → (e.1, inode) ∈ s.kernel
          else ∃ w ∈ s.kernel, w.2 = inode)) (by
        constructor
        · rintro (⟨e, he, heq⟩ | h) hnew
          · exact absurd heq (hnew e he)
          · exact h
        · intro h
          by_cases hknown : ∃ e ∈ s.watches, e.2 = ⟨id, writer⟩
          · exact Or.inl hknown
          · exact Or.inr (h fun e he heq => hknown ⟨e, he, heq⟩))
  | .free inode => inferInstanceAs (Decidable (∀ w ∈ s.kernel, w.2 ≠ inode))
  | .removeFlow _ _ | .create _ | .unlink _ => isTrue trivial

instance (s : Watched Nat Bool) : (action : Action Nat Bool) → Decidable (Usage s action)
  | .call action => decidable_of_iff (InStep s.tables action ∧
      ∀ t ∈ DomainWatcher.step s.tables action, ∀ w ∈ t.kernel, w ∉ s.tables.kernel →
        ∀ event ∈ s.queue, event.wd ≠ w.1) Iff.rfl
  | .read _ | .process _ _ => isTrue trivial

instance (s : Watched Nat Bool) : (action : Action Nat Bool) → Decidable (Lands s action)
  | .process count _ => decidable_of_iff (∀ event ∈ s.queue.take count, event.mask.accepted = true →
      ∀ it ∈ lowerBound s.tables.watches event.wd,
        it.1 = event.wd ∨ event.flow = some it.2.id) Iff.rfl
  | .call _ | .read _ => isTrue trivial

/-- The first flow is read and let go before the event is processed. -/
def staleRun : List (Action Nat Bool) :=
  [.call (.create false), .call (.create true), .call (.addFlow 7 false true 1 true),
    .call (.addFlow 8 true true 2 true), .read 0, .call (.removeFlow 7 false), .process 2 100]

end Example

end MediaExchange.WatchEvents
