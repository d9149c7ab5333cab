/-
  MediaExchange/PublishedBeforeObserved.lean
  ==========================================
  **Which grains a reader can be handed before they are published.**

  A commit stores the head before it stores the record, and the reader judges a
  grain by whatever record is in its slot.  Between the two stores that is the
  record of an earlier lap, as it is, for as long as it takes, where an index was
  skipped.  A request is answered from published data as long as the reader does
  not look at such a slot (`Fresh`).

  A record counts as published from the moment it is stored.
-/
import MediaExchange.DiscreteInterleaving

namespace MediaExchange.PublishedBeforeObserved

open MediaExchange.LabelledRun MediaExchange.DiscreteInterleaving

/-! ### What is asked for -/

/-- The record stored last in the slot of an index. -/
def lastPublished (s : DiscreteSystem) (index : UInt64) : Option GrainInfo :=
  s.published.find? fun c => s.flow.offset c.index = s.flow.offset index

/-- A grain that was handed out and is not flagged invalid has been committed, with
    as many slices as the request took. -/
def OnlyPublished (s : DiscreteSystem) : Prop :=
  ∀ info valid total, s.reader.pc = .returnedOk info valid total → info.isInvalid = false →
    ∃ c ∈ s.published, c.index = s.reader.index ∧
      min s.reader.minValidSlices total ≤ c.validSlices

/-- When the reader loads the valid slices, the slot holds a record of the grain it
    asks for. -/
def LoadsOwn (s : DiscreteSystem) : ReaderPc → Prop
  | .loadValid _ => (lastPublished s s.reader.index).map GrainInfo.index = some s.reader.index
  | _ => True

/-- A record the reader has accepted for being flagged invalid is not replaced before
    it is copied. -/
def KeepsAccepted (s : DiscreteSystem) : WriterPc → ReaderPc → Prop
  | .storeInfo _, .copyInfo valid total =>
      ¬ min s.reader.minValidSlices total ≤ valid →
        s.flow.offset s.reader.index ≠ s.flow.offset s.writer.currentIndex
  | _, _ => True

def Fresh (s : DiscreteSystem) : Action → Prop
  | .readerStep _ => LoadsOwn s s.reader.pc
  | .writerStep _ => KeepsAccepted s s.writerPc s.reader.pc
  | _ => True

instance (s : DiscreteSystem) (pc : ReaderPc) : Decidable (LoadsOwn s pc) := by
  unfold LoadsOwn
  split <;> infer_instance

instance (s : DiscreteSystem) (writerPc : WriterPc) (pc : ReaderPc) :
    Decidable (KeepsAccepted s writerPc pc) := by
  unfold KeepsAccepted
  split <;> infer_instance

instance (s : DiscreteSystem) (a : Action) : Decidable (Fresh s a) :=
  match a with
  | .readerStep _ => inferInstanceAs (Decidable (LoadsOwn s s.reader.pc))
  | .writerStep _ => inferInstanceAs (Decidable (KeepsAccepted s s.writerPc s.reader.pc))
  | .openGrain _ | .commit _ | .cancel | .getGrain _ _ _ _ => isTrue trivial

/-! ### What the reader's state owes to -/

/-- Slices of a commit of the grain the reader asks for. -/
def HasCommit (published : List GrainInfo) (r : DiscreteReader) (valid : UInt16) : Prop :=
  ∃ c ∈ published, c.index = r.index ∧ c.validSlices = valid

/-- The valid slices the reader has loaded are those of a commit, and it accepts a
    grain for them or for its being flagged invalid. -/
def Justified (published : List GrainInfo) (flow : DiscreteFlowData) (r : DiscreteReader) : Prop :=
  match r.pc with
  | .loadTotal (some valid) => HasCommit published r valid
  | .loadFlags valid _ => HasCommit published r valid
  | .copyInfo valid total =>
      HasCommit published r valid ∧
        (min r.minValidSlices total ≤ valid ∨ (flow.grainInfo r.index).isInvalid = true)
  | .returnedOk info valid total =>
      HasCommit published r valid ∧ (min r.minValidSlices total ≤ valid ∨ info.isInvalid = true)
  | _ => True

section Reader

variable {published : List GrainInfo} {flow : DiscreteFlowData} {r r' : DiscreteReader}

theorem justified_tooEarly : Justified published flow r.tooEarly := by
  unfold DiscreteReader.tooEarly
  cases r.blocking with
  | true => trivial
  | false => trivial

theorem justified_afterSlices {valid : UInt16} (h : HasCommit published r valid)
    (total : UInt16) : Justified published flow (r.afterSlices valid total) := by
  unfold DiscreteReader.afterSlices
  by_cases hvalid : min r.minValidSlices total ≤ valid
  · simp only [Justified, ge_iff_le, if_pos hvalid]
    exact ⟨h, Or.inl hvalid⟩
  · simp only [Justified, ge_iff_le, if_neg hvalid]
    exact h

theorem justified_next_waiting {expired : Bool} (hpc : r.pc.waiting = true)
    (h : r.next flow expired = some r') : Justified published flow r' := by
  obtain ⟨pc, rfl, hwait | rfl | rfl⟩ := next_waiting hpc h
  · cases pc with
    | waitLoad | checkDeadline | futexWait | asleep => trivial
    | _ => cases hwait
  · trivial
  · trivial

theorem justified_next {expired : Bool} (hr : Justified published flow r)
    (hfresh : ∀ total, r.pc = .loadValid total →
      HasCommit published r (flow.grainInfo r.index).validSlices)
    (h : r.next flow expired = some r') : Justified published flow r' := by
  by_cases hwait : r.pc.waiting = true
  · exact justified_next_waiting hwait h
  obtain ⟨index, minValidSlices, blocking, totalFirst, previous, pc⟩ := r
  cases pc with
  | loadSync =>
    obtain rfl := Option.some.inj h
    trivial
  | loadHead =>
    rcases next_loadHead rfl h with ⟨-, rfl | rfl⟩ | rfl | ⟨-, rfl⟩
    · trivial
    · trivial
    · trivial
    · exact justified_tooEarly
  | loadValid total =>
    have hcommit := hfresh total rfl
    cases total with
    | none =>
      obtain rfl := Option.some.inj h
      exact hcommit
    | some total =>
      obtain rfl := Option.some.inj h
      exact justified_afterSlices hcommit total
  | loadTotal valid =>
    cases valid with
    | none =>
      obtain rfl := Option.some.inj h
      trivial
    | some valid =>
      obtain rfl := Option.some.inj h
      exact justified_afterSlices hr _
  | loadFlags valid total =>
    simp only [DiscreteReader.next] at h
    split at h
    · next hflags =>
      obtain rfl := Option.some.inj h
      exact ⟨hr, Or.inr hflags⟩
    · obtain rfl := Option.some.inj h
      exact justified_tooEarly
  | copyInfo valid total =>
    obtain rfl := Option.some.inj h
    exact hr
  | waitLoad | checkDeadline | futexWait | asleep => exact absurd rfl hwait
  | idle | returnedOk _ _ _ | returnedError _ => cases h

/-- The writer takes nothing back; all it can do is replace a record that is about to
    be copied. -/
theorem justified_mono {published' : List GrainInfo} {flow' : DiscreteFlowData}
    (hr : Justified published flow r) (hsub : ∀ c ∈ published, c ∈ published')
    (hflags : ∀ valid total, r.pc = .copyInfo valid total →
      ¬ min r.minValidSlices total ≤ valid → (flow.grainInfo r.index).isInvalid = true →
      (flow'.grainInfo r.index).isInvalid = true) : Justified published' flow' r := by
  have hmono : ∀ valid, HasCommit published r valid → HasCommit published' r valid := by
    rintro valid ⟨c, hc, hcommit⟩
    exact ⟨c, hsub c hc, hcommit⟩
  unfold Justified at hr ⊢
  split at hr
  · exact hmono _ hr
  · exact hmono _ hr
  · next valid total hpc =>
    refine ⟨hmono _ hr.1, ?_⟩
    by_cases hvalid : min r.minValidSlices total ≤ valid
    · exact Or.inl hvalid
    · exact Or.inr (hflags valid total hpc hvalid (hr.2.resolve_left hvalid))
  · exact ⟨hmono _ hr.1, hr.2⟩
  · trivial

theorem justified_wake (hr : Justified published flow r) : Justified published flow r.wake := by
  obtain ⟨index, minValidSlices, blocking, totalFirst, previous, pc⟩ := r
  cases pc with
  | asleep => trivial
  | _ => exact hr

end Reader

/-! ### The invariant -/

structure PublishedInv (s : DiscreteSystem) : Prop where
  writing : ∀ info, s.writerPc = .storeHead info ∨ s.writerPc = .storeInfo info →
    info.index = s.writer.currentIndex
  slots : ∀ i c, lastPublished s i = some c → (s.flow.grainInfo i).validSlices = c.validSlices
  reader : Justified s.published s.flow s.reader

theorem publishedInv_init (flow : DiscreteFlowData) : PublishedInv (.init flow) := by
  constructor
  · rintro info (h | h) <;> cases h
  · intro i c h
    cases h
  · trivial

theorem lastPublished_storeInfo (s : DiscreteSystem) (index i : UInt64) (info : GrainInfo)
    (writerPc : WriterPc) :
    lastPublished { s with flow := s.flow.storeGrainInfo index info
                           writerPc := writerPc
                           published := info :: s.published } i =
      if s.flow.offset info.index = s.flow.offset i then some info else lastPublished s i := by
  change (info :: s.published).find? (fun c => s.flow.offset c.index = s.flow.offset i) = _
  by_cases h : s.flow.offset info.index = s.flow.offset i
  · rw [if_pos h, List.find?_cons_of_pos (by simpa using h)]
  · rw [if_neg h, List.find?_cons_of_neg (by simpa using h)]
    rfl

theorem publishedInv_storeInfo {s : DiscreteSystem} {info : GrainInfo} (hs : PublishedInv s)
    (hpc : s.writerPc = .storeInfo info) (hkeep : KeepsAccepted s s.writerPc s.reader.pc) :
    PublishedInv { s with flow := s.flow.storeGrainInfo s.writer.currentIndex info
                          writerPc := .storeTime info
                          published := info :: s.published } := by
  have hindex := hs.writing info (Or.inr hpc)
  constructor
  · rintro info' (h | h) <;> cases h
  · intro i c hlast
    rw [lastPublished_storeInfo] at hlast
    rw [DiscreteFlowData.grainInfo_storeGrainInfo, ← hindex]
    by_cases hslot : s.flow.offset info.index = s.flow.offset i
    · rw [if_pos hslot] at hlast
      obtain rfl := Option.some.inj hlast
      rw [if_pos hslot.symm]
    · rw [if_neg hslot] at hlast
      rw [if_neg (Ne.symm hslot)]
      exact hs.slots i c hlast
  · apply justified_mono hs.reader
    · intro c hc
      exact List.mem_cons_of_mem _ hc
    · intro valid total hcopy hfew hflags
      rw [hpc, hcopy] at hkeep
      rw [DiscreteFlowData.grainInfo_storeGrainInfo, if_neg (hkeep hfew)]
      exact hflags

/-- The other stores change no record, and none of them waits for one to be written. -/
theorem publishedInv_keepGrains {s : DiscreteSystem} (hs : PublishedInv s)
    {flow : DiscreteFlowData} (hcount : flow.grainCount = s.flow.grainCount)
    (hgrains : flow.grains = s.flow.grains) {writer : PosixDiscreteFlowWriter}
    {writerPc : WriterPc}
    (hwriting : ∀ info, writerPc = .storeHead info ∨ writerPc = .storeInfo info →
      info.index = writer.currentIndex) (commitsSinceLoad : Nat) :
    PublishedInv { s with flow := flow, writer := writer, writerPc := writerPc
                          commitsSinceLoad := commitsSinceLoad } := by
  have hoffset := DiscreteFlowData.offset_congr hcount
  have hinfo : ∀ i, flow.grainInfo i = s.flow.grainInfo i := by
    intro i
    rw [DiscreteFlowData.grainInfo, DiscreteFlowData.grainInfo, hgrains, hoffset]
  constructor
  · exact hwriting
  · intro i c hlast
    simp only [lastPublished, hoffset] at hlast
    dsimp only
    rw [hinfo]
    exact hs.slots i c hlast
  · apply justified_mono hs.reader (fun c hc => hc)
    intro _ _ _ _ hflags
    rw [hinfo]
    exact hflags

theorem publishedInv_writerStep {s t : DiscreteSystem} {now : UInt64} (hs : PublishedInv s)
    (hkeep : KeepsAccepted s s.writerPc s.reader.pc) (h : step s (.writerStep now) = some t) :
    PublishedInv t := by
  simp only [step, writerNext] at h
  split at h
  · cases h
  · next info hpc =>
    obtain rfl := Option.some.inj h
    apply publishedInv_keepGrains hs
    · rfl
    · rfl
    · rintro info' (h | h)
      · cases h
      · cases h
        exact hs.writing info (Or.inl hpc)
  · next info hpc =>
    obtain rfl := Option.some.inj h
    exact publishedInv_storeInfo hs hpc hkeep
  · obtain rfl := Option.some.inj h
    apply publishedInv_keepGrains hs
    · rfl
    · rfl
    · rintro info' (h | h) <;> cases h
  · obtain rfl := Option.some.inj h
    apply publishedInv_keepGrains hs
    · rfl
    · rfl
    · rintro info' (h | h) <;> cases h
  · obtain rfl := Option.some.inj h
    constructor
    · rintro info' (h | h) <;> cases h
    · exact hs.slots
    · exact justified_wake hs.reader

theorem publishedInv_step {s t : DiscreteSystem} {a : Action} (hs : PublishedInv s)
    (hfresh : Fresh s a) (h : step s a = some t) : PublishedInv t := by
  cases a with
  | openGrain index =>
    obtain ⟨hidle, rfl⟩ := step_openGrain h
    constructor
    · rintro info (hpc | hpc) <;> (rw [hidle] at hpc; cases hpc)
    · intro i c hlast
      obtain ⟨j, hfields⟩ := DiscreteFlowData.grainInfo_storeGrainIndex_fields s.flow index i
      rw [hfields]
      exact hs.slots i c hlast
    · apply justified_mono hs.reader (fun c hc => hc)
      intro _ _ _ _ hflags
      obtain ⟨j, hfields⟩ :=
        DiscreteFlowData.grainInfo_storeGrainIndex_fields s.flow index s.reader.index
      rw [hfields]
      exact hflags
  | commit info =>
    obtain ⟨hidle, rfl | ⟨hindex, rfl⟩⟩ := step_commit h
    · exact hs
    · constructor
      · rintro info' (hpc | hpc)
        · cases hpc
          exact hindex
        · cases hpc
      · exact hs.slots
      · exact hs.reader
  | cancel =>
    obtain ⟨hidle, rfl⟩ := step_cancel h
    constructor
    · rintro info (hpc | hpc) <;> (rw [hidle] at hpc; cases hpc)
    · exact hs.slots
    · exact hs.reader
  | writerStep now => exact publishedInv_writerStep hs hfresh h
  | getGrain index minValidSlices blocking totalFirst =>
    obtain rfl := step_getGrain h
    constructor
    · exact hs.writing
    · exact hs.slots
    · cases blocking with
      | true => trivial
      | false => trivial
  | readerStep expired =>
    obtain ⟨reader, hnext, rfl⟩ := step_readerStep h
    constructor
    · exact hs.writing
    · exact hs.slots
    · apply justified_next hs.reader _ hnext
      intro total hpc
      have hown : LoadsOwn s s.reader.pc := hfresh
      rw [hpc] at hown
      obtain ⟨c, hlast, hindex⟩ := Option.map_eq_some_iff.mp hown
      exact ⟨c, List.mem_of_find?_eq_some hlast, hindex, (hs.slots _ c hlast).symm⟩

theorem onlyPublished_of_inv {s : DiscreteSystem} (hs : PublishedInv s) : OnlyPublished s := by
  intro info valid total hpc hvalidFlag
  have hreader := hs.reader
  simp only [Justified, hpc] at hreader
  obtain ⟨⟨c, hc, hindex, rfl⟩, hvalid | hflags⟩ := hreader
  · exact ⟨c, hc, hindex, hvalid⟩
  · rw [hvalidFlag] at hflags
    cases hflags

/-! ### Runs -/

def completeRecord (index : UInt64) : GrainInfo :=
  { version := 1, size := 4096, index := index, flags := 0, grainSize := 16, totalSlices := 1,
    validSlices := 1 }

def wholeCommit (index now : UInt64) : List Action :=
  [.openGrain index, .commit (completeRecord index), .writerStep now, .writerStep now,
    .writerStep now, .writerStep now, .writerStep now]

/-- Grains 0 and 1 are committed, and grain 2 up to the store of the head; the reader
    asks for grain 2 and goes through its loads. -/
def headFirstRun : List Action :=
  wholeCommit 0 1 ++ wholeCommit 1 2 ++ [.openGrain 2, .commit (completeRecord 2), .writerStep 3,
    .getGrain 2 1 false false, .readerStep false, .readerStep false, .readerStep false,
    .readerStep false]

end MediaExchange.PublishedBeforeObserved
