/-
  MediaExchange/LoopingSource.lean
  ================================
  **The threads of the looping file source** (`tools/mxl-gst/looping_filesrc.cpp`).

  A thread pulls buffers and knows the index the next one should have.  A buffer that
  has it is written there.  One that is ahead makes the thread fill what is between, with
  invalid grains or with silence; one that is behind is reported.  In either case the
  buffer itself is not written, and the thread goes on a buffer further: the index that is
  filled last, or that was expected, is left out.

  The thread for audio does what that for video does, by whole batches, but that a buffer
  which is less than a batch behind makes it start anew (`videoThread_eq`).  The index of
  samples is that of their end.

  Main result: `accounted_of_sized`.  Nothing is written twice, and what is never written
  is one batch for every buffer that is dropped.  Indices are naturals; they are far from
  the end of 64 bits.
-/
import MediaExchange.Library.LabelledRun
import MediaExchange.Library.SeparatedRanges

namespace MediaExchange.LoopingSource

open MediaExchange.LabelledRun
open MediaExchange.SeparatedRanges

/-! ### Buffers and commits -/

/-- A buffer of the pipeline: the index of its time stamp, whether it can be mapped, and
    its samples per channel. -/
structure Buffer where
  gstIndex : Nat
  mapped : Bool
  size : Nat

/-- A buffer that is pulled, and at which indices opening and committing work. -/
structure Pull where
  buffer : Buffer
  works : Nat → Bool

/-- An invalid grain or silence; or what is in a buffer. -/
inductive Content where
  | filler
  | buffer (gstIndex : Nat)
deriving DecidableEq

structure Commit where
  index : Nat
  count : Nat
  content : Content
deriving DecidableEq

/-- The numbers of the samples that end at an index. -/
def Commit.range (commit : Commit) : Nat × Nat := (commit.index + 1 - commit.count, commit.index + 1)

/-- Whether the thread goes on, and with which index. -/
inductive Next where
  | running (index : Option Nat)
  | ended
deriving DecidableEq

/-- The loop that fills a gap of `nb`, at most a batch at a time; as many rounds as there
    are samples are enough. -/
def fillGap (batch : Nat) (works : Nat → Bool) : Nat → Nat → Nat → List Commit × Nat
  | 0, _, index => ([], index)
  | rounds + 1, nb, index =>
      if nb = 0 then ([], index)
      else if works index then
        let nbBatch := min nb batch
        let (commits, last) := fillGap batch works rounds (nb - nbBatch) (index + nbBatch)
        ({ index, count := nbBatch, content := .filler } :: commits, last)
      else ([], index)

/-! ### The threads -/

/-- One buffer in `videoThread`. -/
def videoThread (grainIndex : Option Nat) (pull : Pull) : List Commit × Next :=
  let index := grainIndex.getD pull.buffer.gstIndex
  if pull.buffer.gstIndex < index then ([], .running (some (index + 1)))
  else if index < pull.buffer.gstIndex then
    let nbGrains := pull.buffer.gstIndex - index
    let (commits, index) := fillGap 1 pull.works nbGrains nbGrains index
    (commits, .running (some (index + 1)))
  else if pull.buffer.mapped then
    if pull.works index then
      ([{ index, count := 1, content := .buffer pull.buffer.gstIndex }], .running (some (index + 1)))
    else ([], .ended)
  else ([], .running (some (index + 1)))

/-- One buffer in `audioThread`. -/
def audioThread (audioBatchSize : Nat) (sampleIndex : Option Nat) (pull : Pull) :
    List Commit × Next :=
  let index := sampleIndex.getD pull.buffer.gstIndex
  if pull.buffer.gstIndex < index then
    if index - pull.buffer.gstIndex < audioBatchSize then ([], .running none)
    else ([], .running (some (index + audioBatchSize)))
  else if index < pull.buffer.gstIndex then
    let nbSamples := pull.buffer.gstIndex - index
    let (commits, index) := fillGap audioBatchSize pull.works nbSamples nbSamples index
    (commits, .running (some (index + audioBatchSize)))
  else if pull.buffer.mapped then
    if pull.works index then
      ([{ index, count := pull.buffer.size, content := .buffer pull.buffer.gstIndex }],
        .running (some (index + audioBatchSize)))
    else ([], .ended)
  else ([], .running (some (index + audioBatchSize)))

/-- A grain is a batch of one sample, and none is less than that behind. -/
theorem videoThread_eq (grainIndex : Option Nat) (pull : Pull) (hsize : pull.buffer.size = 1) :
    videoThread grainIndex pull = audioThread 1 grainIndex pull := by
  unfold videoThread audioThread
  rw [hsize]
  by_cases hbehind : pull.buffer.gstIndex < grainIndex.getD pull.buffer.gstIndex
  · have hfar : ¬grainIndex.getD pull.buffer.gstIndex - pull.buffer.gstIndex < 1 :=
      Nat.not_lt.mpr (Nat.sub_pos_of_lt hbehind)
    simp only [if_pos hbehind, if_neg hfar]
  · simp only [if_neg hbehind]

/-! ### Runs of a thread -/

def Commit.isBuffer (commit : Commit) : Bool := commit.content != .filler

structure Player where
  next : Next
  commits : List Commit
  /-- The index of the first buffer. -/
  first : Option Nat
  /-- How many buffers were not written. -/
  dropped : Nat

def Player.start : Player := { next := .running none, commits := [], first := none, dropped := 0 }

def step (thread : Option Nat → Pull → List Commit × Next) (s : Player) (pull : Pull) :
    Option Player :=
  match s.next with
  | .ended => none
  | .running index =>
      let (commits, next) := thread index pull
      some { next
             commits := s.commits ++ commits
             first := some (s.first.getD pull.buffer.gstIndex)
             dropped := s.dropped + if commits.any Commit.isBuffer then 0 else 1 }

/-- A buffer is a batch, and not less than one behind; the first is not less than one from
    the epoch. -/
structure Sized (batch : Nat) (s : Player) (pull : Pull) : Prop where
  size : pull.buffer.size = batch
  noDrift : ∀ index, s.next = .running (some index) → pull.buffer.gstIndex < index →
    batch ≤ index - pull.buffer.gstIndex
  start : s.first = none → batch ≤ pull.buffer.gstIndex

/-- What is to hold of a thread: its buffers are where their time stamps say, nothing is
    written twice, and from its first buffer on one batch is missing for each that it
    dropped. -/
structure Accounted (batch : Nat) (s : Player) : Prop where
  inPlace : ∀ commit ∈ s.commits, ∀ gstIndex, commit.content = .buffer gstIndex →
    commit.index = gstIndex ∧ commit.count = batch
  separated : Separated (s.commits.map Commit.range)
  missing : ∀ first index, s.first = some first → s.next = .running (some index) →
    (Finset.Ico (first + 1 - batch) (index + 1 - batch) \ covered (s.commits.map Commit.range)).card =
      batch * s.dropped

/-! ### Filling -/

section Filling

variable {batch : Nat} {works : Nat → Bool}

/-- The samples of some commits, together. -/
def samples : List Commit → Nat
  | [] => 0
  | commit :: commits => commit.count + samples commits

/-- What the loop writes: fillers one behind the other, up to where it comes to. -/
structure Filled (batch nb index : Nat) (commits : List Commit) (last : Nat) : Prop where
  filler : ∀ commit ∈ commits, commit.content = .filler
  bounds : ∀ commit ∈ commits, index ≤ commit.index ∧ commit.count ≤ min nb batch ∧
    commit.index + commit.count ≤ last
  separated : commits.Pairwise fun commit later => commit.index + later.count ≤ later.index
  total : index + samples commits = last

theorem filled_fillGap (rounds nb index : Nat) :
    Filled batch nb index (fillGap batch works rounds nb index).1
      (fillGap batch works rounds nb index).2 := by
  induction rounds generalizing nb index with
  | zero => exact ⟨nofun, nofun, .nil, rfl⟩
  | succ rounds ih =>
    rw [fillGap]
    by_cases hnb : nb = 0
    · rw [if_pos hnb]
      exact ⟨nofun, nofun, .nil, rfl⟩
    · rw [if_neg hnb]
      by_cases hworks : works index
      · rw [if_pos hworks]
        obtain ⟨hfiller, hbounds, hseparated, htotal⟩ :=
          ih (nb - min nb batch) (index + min nb batch)
        dsimp only
        refine ⟨?_, ?_, ?_, ?_⟩
        · intro commit hcommit
          rcases List.mem_cons.mp hcommit with rfl | hcommit
          · rfl
          · exact hfiller commit hcommit
        · intro commit hcommit
          rcases List.mem_cons.mp hcommit with rfl | hcommit
          · refine ⟨Nat.le_refl _, Nat.le_refl _, ?_⟩
            rw [← htotal]
            exact Nat.le_add_right _ _
          · obtain ⟨hfrom, hcount, hto⟩ := hbounds commit hcommit
            refine ⟨by omega, ?_, hto⟩
            apply Nat.le_trans hcount
            exact min_le_min_right batch (Nat.sub_le _ _)
        · refine List.pairwise_cons.mpr ⟨?_, hseparated⟩
          intro later hlater
          obtain ⟨hfrom, hcount, -⟩ := hbounds later hlater
          have hless : min (nb - min nb batch) batch ≤ min nb batch :=
            min_le_min_right batch (Nat.sub_le _ _)
          dsimp only
          omega
        · rw [samples, ← Nat.add_assoc]
          exact htotal
      · rw [if_neg hworks]
        exact ⟨nofun, nofun, .nil, rfl⟩

/-- Where everything works the gap is filled. -/
theorem fillGap_last (hpos : 0 < batch) (hworks : ∀ index, works index = true) {rounds nb index : Nat}
    (hrounds : nb ≤ rounds) : (fillGap batch works rounds nb index).2 = index + nb := by
  induction rounds generalizing nb index with
  | zero =>
    obtain rfl := Nat.le_zero.mp hrounds
    rfl
  | succ rounds ih =>
    rw [fillGap]
    by_cases hnb : nb = 0
    · rw [if_pos hnb, hnb]
      rfl
    · rw [if_neg hnb, if_pos (hworks index)]
      dsimp only
      rw [ih (by omega)]
      omega

end Filling

/-! ### One buffer -/

section OneBuffer

variable {batch : Nat}

/-- What a thread that expected `index` writes, when it goes on to expect `next`. -/
structure Moved (batch index : Nat) (commits : List Commit) (next : Nat) : Prop where
  inPlace : ∀ commit ∈ commits, ∀ gstIndex, commit.content = .buffer gstIndex →
    commit.index = gstIndex ∧ commit.count = batch
  bounds : ∀ commit ∈ commits, index ≤ commit.index ∧ commit.count ≤ batch ∧
    commit.index + batch ≤ next
  separated : commits.Pairwise fun commit later => commit.index + later.count ≤ later.index
  total : index + samples commits + batch * (if commits.any Commit.isBuffer then 0 else 1) = next

theorem moved_nothing (batch index : Nat) : Moved batch index [] (index + batch) where
  inPlace := nofun
  bounds := nofun
  separated := .nil
  total := by simp [samples]

theorem moved_buffer (batch gstIndex : Nat) :
    Moved batch gstIndex [{ index := gstIndex, count := batch, content := .buffer gstIndex }]
      (gstIndex + batch) where
  inPlace := by simp
  bounds := by simp
  separated := List.pairwise_singleton _ _
  total := by simp [samples, Commit.isBuffer]

theorem moved_filled {nb index last : Nat} {commits : List Commit}
    (h : Filled batch nb index commits last) : Moved batch index commits (last + batch) where
  inPlace := by
    intro commit hcommit gstIndex hcontent
    rw [h.filler commit hcommit] at hcontent
    cases hcontent
  bounds := by
    intro commit hcommit
    obtain ⟨hfrom, hcount, hto⟩ := h.bounds commit hcommit
    exact ⟨hfrom, Nat.le_trans hcount (Nat.min_le_right _ _),
      Nat.add_le_add_right (Nat.le_trans (Nat.le_add_right _ _) hto) batch⟩
  separated := h.separated
  total := by
    have hfillers : commits.any Commit.isBuffer = false := by
      rw [List.any_eq_false]
      intro commit hcommit
      simp [Commit.isBuffer, h.filler commit hcommit]
    rw [hfillers, if_neg Bool.false_ne_true, Nat.mul_one, h.total]

/-- A thread ends without having written, or goes on. -/
theorem audioThread_cases {sampleIndex : Option Nat} {pull : Pull} (hsize : pull.buffer.size = batch)
    (hdrift : pull.buffer.gstIndex < sampleIndex.getD pull.buffer.gstIndex →
      batch ≤ sampleIndex.getD pull.buffer.gstIndex - pull.buffer.gstIndex) :
    audioThread batch sampleIndex pull = ([], .ended) ∨
      ∃ commits next, audioThread batch sampleIndex pull = (commits, .running (some next)) ∧
        Moved batch (sampleIndex.getD pull.buffer.gstIndex) commits next := by
  unfold audioThread
  generalize sampleIndex.getD pull.buffer.gstIndex = index at hdrift ⊢
  dsimp only
  by_cases hbehind : pull.buffer.gstIndex < index
  · rw [if_pos hbehind, if_neg (Nat.not_lt.mpr (hdrift hbehind))]
    exact Or.inr ⟨_, _, rfl, moved_nothing batch index⟩
  · rw [if_neg hbehind]
    by_cases hahead : index < pull.buffer.gstIndex
    · rw [if_pos hahead]
      exact Or.inr ⟨_, _, rfl, moved_filled (filled_fillGap _ _ _)⟩
    · rw [if_neg hahead]
      obtain rfl : index = pull.buffer.gstIndex :=
        Nat.le_antisymm (Nat.le_of_not_lt hbehind) (Nat.le_of_not_lt hahead)
      by_cases hmapped : pull.buffer.mapped = true
      · rw [if_pos hmapped]
        by_cases hworks : pull.works pull.buffer.gstIndex = true
        · rw [if_pos hworks, hsize]
          exact Or.inr ⟨_, _, rfl, moved_buffer batch pull.buffer.gstIndex⟩
        · rw [if_neg hworks]
          exact Or.inl rfl
      · rw [if_neg hmapped]
        exact Or.inr ⟨_, _, rfl, moved_nothing batch _⟩

end OneBuffer

/-! ### The invariant -/

section Runs

variable {batch : Nat} {s t : Player} {pull : Pull}

/-- What a thread that has seen buffers from `first` on, and expects `index`, has written. -/
structure Going (batch : Nat) (s : Player) (first index : Nat) : Prop where
  start : batch ≤ first ∧ first ≤ index
  bounds : ∀ commit ∈ s.commits, first ≤ commit.index ∧ commit.count ≤ batch ∧
    commit.index + batch ≤ index
  total : first + samples s.commits + batch * s.dropped = index

structure Invariant (batch : Nat) (s : Player) : Prop where
  inPlace : ∀ commit ∈ s.commits, ∀ gstIndex, commit.content = .buffer gstIndex →
    commit.index = gstIndex ∧ commit.count = batch
  separated : s.commits.Pairwise fun commit later => commit.index + later.count ≤ later.index
  fresh : s.next = .running none → s.first = none ∧ s.commits = [] ∧ s.dropped = 0
  going : ∀ index, s.next = .running (some index) → ∃ first, s.first = some first ∧
    Going batch s first index

theorem invariant_start (batch : Nat) : Invariant batch .start where
  inPlace := nofun
  separated := .nil
  fresh _ := ⟨rfl, rfl, rfl⟩
  going := nofun

theorem samples_append (commits later : List Commit) :
    samples (commits ++ later) = samples commits + samples later := by
  induction commits with
  | nil => simp [samples]
  | cons commit commits ih => simp [samples, ih, Nat.add_assoc]

/-- The thread has come to `index`, and goes on from there. -/
theorem going_step {first index next : Nat} {commits : List Commit} (h : Going batch s first index)
    (hmoved : Moved batch index commits next) :
    Going batch { next := .running (some next), commits := s.commits ++ commits, first := some first
                  dropped := s.dropped + if commits.any Commit.isBuffer then 0 else 1 } first next := by
  have htotal := hmoved.total
  have hle : index ≤ next := by
    rw [← htotal, Nat.add_assoc]
    exact Nat.le_add_right _ _
  refine ⟨⟨h.start.1, Nat.le_trans h.start.2 hle⟩, ?_, ?_⟩
  · intro commit hcommit
    rcases List.mem_append.mp hcommit with hcommit | hcommit
    · obtain ⟨hfrom, hcount, hto⟩ := h.bounds commit hcommit
      exact ⟨hfrom, hcount, Nat.le_trans hto hle⟩
    · obtain ⟨hfrom, hcount, hto⟩ := hmoved.bounds commit hcommit
      exact ⟨Nat.le_trans h.start.2 hfrom, hcount, hto⟩
  · have hbefore := h.total
    dsimp only
    rw [samples_append, Nat.mul_add]
    omega

theorem separated_step {first index next : Nat} {commits : List Commit}
    (hseparated : s.commits.Pairwise fun commit later => commit.index + later.count ≤ later.index)
    (h : Going batch s first index) (hmoved : Moved batch index commits next) :
    (s.commits ++ commits).Pairwise fun commit later => commit.index + later.count ≤ later.index := by
  refine List.pairwise_append.mpr ⟨hseparated, hmoved.separated, ?_⟩
  intro commit hcommit later hlater
  obtain ⟨-, -, hto⟩ := h.bounds commit hcommit
  obtain ⟨hfrom, hcount, -⟩ := hmoved.bounds later hlater
  calc commit.index + later.count ≤ commit.index + batch := Nat.add_le_add_left hcount _
    _ ≤ index := hto
    _ ≤ later.index := hfrom

/-- Where the thread is when it looks at a buffer: at the buffer, if it is the first. -/
theorem going_of_pull (hs : Invariant batch s) (hsized : Sized batch s pull) {sampleIndex : Option Nat}
    (hnext : s.next = .running sampleIndex) :
    Going batch s (s.first.getD pull.buffer.gstIndex) (sampleIndex.getD pull.buffer.gstIndex) := by
  cases sampleIndex with
  | none =>
    obtain ⟨hfirst, hcommits, hdropped⟩ := hs.fresh hnext
    rw [hfirst]
    refine ⟨⟨hsized.start hfirst, Nat.le_refl _⟩, ?_, ?_⟩
    · rw [hcommits]
      nofun
    · rw [hcommits, hdropped]
      rfl
  | some index =>
    obtain ⟨first, hfirst, hgoing⟩ := hs.going index hnext
    rw [hfirst]
    exact hgoing

theorem invariant_step (hs : Invariant batch s) (hsized : Sized batch s pull)
    (h : step (audioThread batch) s pull = some t) : Invariant batch t := by
  unfold step at h
  split at h
  · cases h
  · next sampleIndex hnext =>
    have hgoing := going_of_pull hs hsized hnext
    have hdrift : pull.buffer.gstIndex < sampleIndex.getD pull.buffer.gstIndex →
        batch ≤ sampleIndex.getD pull.buffer.gstIndex - pull.buffer.gstIndex := by
      cases sampleIndex with
      | none => exact fun hlt => absurd hlt (Nat.lt_irrefl _)
      | some index => exact hsized.noDrift index hnext
    rcases audioThread_cases hsized.size hdrift with hended | ⟨commits, next, hcall, hmoved⟩
    · rw [hended] at h
      obtain rfl := Option.some.inj h
      simp only [List.append_nil]
      exact ⟨hs.inPlace, hs.separated, nofun, nofun⟩
    · rw [hcall] at h
      obtain rfl := Option.some.inj h
      refine ⟨?_, separated_step hs.separated hgoing hmoved, nofun, ?_⟩
      · intro commit hcommit
        rcases List.mem_append.mp hcommit with hcommit | hcommit
        · exact hs.inPlace commit hcommit
        · exact hmoved.inPlace commit hcommit
      · intro index hindex
        obtain rfl : next = index := by simpa using hindex
        exact ⟨_, rfl, going_step hgoing hmoved⟩

/-! ### What is missing -/

theorem total_ranges {commits : List Commit} (h : ∀ commit ∈ commits, commit.count ≤ commit.index + 1) :
    total (commits.map Commit.range) = samples commits := by
  induction commits with
  | nil => rfl
  | cons commit commits ih =>
    have hcount := h commit List.mem_cons_self
    rw [List.map_cons, total, samples, ih fun other hother => h other (List.mem_cons_of_mem commit hother),
      Commit.range]
    dsimp only
    rw [Nat.sub_sub_self hcount]

theorem separated_ranges {commits : List Commit}
    (h : commits.Pairwise fun commit later => commit.index + later.count ≤ later.index) :
    Separated (commits.map Commit.range) := by
  apply List.pairwise_map.mpr
  apply h.imp
  intro commit later hle
  simp only [Commit.range]
  omega

theorem accounted_of_invariant (hs : Invariant batch s) : Accounted batch s where
  inPlace := hs.inPlace
  separated := separated_ranges hs.separated
  missing := by
    intro first index hfirst hnext
    obtain ⟨first', hfirst', ⟨hbatch, hle⟩, hbounds, htotal⟩ := hs.going index hnext
    obtain rfl := Option.some.inj (hfirst.symm.trans hfirst')
    apply card_missing (separated_ranges hs.separated)
    · intro range hrange
      obtain ⟨commit, hcommit, rfl⟩ := List.mem_map.mp hrange
      obtain ⟨hfrom, hcount, hto⟩ := hbounds commit hcommit
      simp only [Commit.range]
      omega
    · have hcounts : ∀ commit ∈ s.commits, commit.count ≤ commit.index + 1 := by
        intro commit hcommit
        obtain ⟨hfrom, hcount, -⟩ := hbounds commit hcommit
        omega
      rw [total_ranges hcounts]
      omega

/-- **A batch for every buffer that is dropped.**  In every run of a thread whose buffers
    are a batch each and never less than a batch behind, whatever fails in between: a
    buffer that is written is where its time stamp says, nothing is written twice, and
    of what the thread has gone past since its first buffer, as many batches were never
    written as there were buffers it did not write. -/
theorem accounted_of_sized (pulls : List Pull) :
    (∀ audioBatchSize, Along (step (audioThread audioBatchSize)) (Sized audioBatchSize) .start pulls →
      Throughout (step (audioThread audioBatchSize)) (Accounted audioBatchSize) .start pulls) ∧
    (Along (step videoThread) (Sized 1) .start pulls →
      Throughout (step videoThread) (Accounted 1) .start pulls) := by
  constructor
  · intro audioBatchSize husage
    refine (throughout_of_along ?_ (invariant_start audioBatchSize) husage).mono fun _ hs =>
      accounted_of_invariant hs
    intro s pull t hs hsized h
    exact invariant_step hs hsized h
  · intro husage
    refine (throughout_of_along ?_ (invariant_start 1) husage).mono fun _ hs =>
      accounted_of_invariant hs
    intro s pull t hs hsized h
    apply invariant_step hs hsized
    rw [← h, step, step]
    cases s.next with
    | ended => rfl
    | running index => simp only [videoThread_eq index pull hsized.size]

end Runs

/-! ### A grain that is late -/

section Example

instance (batch : Nat) (s : Player) (pull : Pull) : Decidable (Sized batch s pull) :=
  match h : s.next with
  | .running (some index) => decidable_of_iff
      (pull.buffer.size = batch ∧ (pull.buffer.gstIndex < index →
        batch ≤ index - pull.buffer.gstIndex) ∧ (s.first = none → batch ≤ pull.buffer.gstIndex)) (by
      constructor
      · rintro ⟨hsize, hdrift, hstart⟩
        refine ⟨hsize, fun index' hindex => ?_, hstart⟩
        obtain rfl : index = index' := by simpa [h] using hindex
        exact hdrift
      · rintro ⟨hsize, hdrift, hstart⟩
        exact ⟨hsize, hdrift index h, hstart⟩)
  | .running none | .ended => decidable_of_iff
      (pull.buffer.size = batch ∧ (s.first = none → batch ≤ pull.buffer.gstIndex)) (by
      constructor
      · rintro ⟨hsize, hstart⟩
        exact ⟨hsize, by simp [h], hstart⟩
      · rintro ⟨hsize, -, hstart⟩
        exact ⟨hsize, hstart⟩)

def grain (gstIndex : Nat) : Pull :=
  { buffer := { gstIndex, mapped := true, size := 1 }, works := fun _ => true }

/-- Grains 5 and 6, then 8 instead of 7, then 9: the thread fills 7 and leaves out 8. -/
theorem accounted_of_lateGrain :
    Throughout (step videoThread) (Accounted 1) .start [grain 5, grain 6, grain 8, grain 9] ∧
      ∃ s, run (step videoThread) .start [grain 5, grain 6, grain 8, grain 9] = some s ∧
        s.commits.map (fun commit => (commit.index, commit.content)) =
          [(5, .buffer 5), (6, .buffer 6), (7, .filler), (9, .buffer 9)] ∧ s.dropped = 1 := by
  have husage : Along (step videoThread) (Sized 1) .start [grain 5, grain 6, grain 8, grain 9] := by
    decide
  exact ⟨(accounted_of_sized _).2 husage, _, rfl, rfl, rfl⟩

end Example

end MediaExchange.LoopingSource
