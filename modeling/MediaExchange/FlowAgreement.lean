/-
  MediaExchange/FlowAgreement.lean
  ================================
  **All calls that succeed agree on one completely set up flow.**

  A directory is built where nobody looks for it, and the rename that publishes it
  happens at most once.  So the calls before the rename have nothing to agree on, and
  the calls after it find the files of the winner, which nobody changes any more: that
  is the invariant of the system, `Workshop` for the directories that are being built
  and `Unpublished` or `PublishedBy` for the calls that look at the flow.

  Main result: `agreement_iff`.  All calls agree throughout a run exactly when no
  continuous flow is published whose geometry does not fit the computation of its size.
-/
import MediaExchange.CompleteFlow

namespace MediaExchange.FlowCreation

open LabelledRun StraightLine

/-! ### Agreement -/

variable {π : Type*}

/-- Where any call has succeeded, one and only one has created the flow; its flow is
    completely set up, and is what every call that has succeeded returned. -/
def Agreement (s : State π) : Prop :=
  ∀ p request created d, s.calls p = .returned request created d →
    ∃ q r e, s.calls q = .returned (some r) true e ∧
      (∀ q' request' e', s.calls q' = .returned request' true e' → q' = q) ∧
      s.published = some e.directory ∧
      r.Complete e.directory (s.directories e.directory) ∧ r.Shown e.directory d

/-! ### The invariant -/

/-- The directories that are being built are fresh, each has one builder, and what is
    still to be done to it completes it. -/
structure Workshop (s : State π) : Prop where
  known : ∀ k, s.published = some k → k < s.nextDirectory
  building : ∀ p r k todo, s.calls p = .building r k todo →
    k < s.nextDirectory ∧ s.published ≠ some k ∧ r.supported = true ∧
      Finishes (r.Built k) todo (s.directories k)
  apart : ∀ p q r r' k todo todo', s.calls p = .building r k todo →
    s.calls q = .building r' k todo' → p = q

/-- A call that has not found a flow. -/
def Call.Early : Call → Prop
  | .opening _ phase => phase = .start
  | .returned _ _ _ => False
  | _ => True

/-- How far a call can be that has found the flow of request `r` in directory `k`. -/
def OpenPhase.Of (r : Request) (k : Nat) : OpenPhase → Prop
  | .start => True
  | .opened j => j = k
  | .grains j count i => j = k ∧ mxlIsDiscreteDataFormat r.config.common.format = true ∧
      count = r.config.discrete.grainCount ∧ i ≤ count.toNat
  | .channels j => j = k ∧ mxlIsContinuousDataFormat r.config.common.format = true

def Call.Of (r : Request) (k : Nat) : Call → Prop
  | .opening _ phase => phase.Of r k
  | .returned _ _ d => r.Shown k d
  | _ => True

structure Unpublished (s : State π) : Prop where
  published : s.published = none
  calls : ∀ p, (s.calls p).Early

/-- Call `q` has published its directory `k`, built for request `r`. -/
structure PublishedBy (s : State π) (q : π) (r : Request) (k : Nat) : Prop where
  published : s.published = some k
  created : ∃ e, s.calls q = .returned (some r) true e
  unique : ∀ p request e, s.calls p = .returned request true e → p = q
  supported : r.supported = true
  built : r.Built k (s.directories k)
  fits : r.Fits
  calls : ∀ p, (s.calls p).Of r k

structure Invariant (s : State π) : Prop where
  workshop : Workshop s
  shared : Unpublished s ∨ ∃ q r k, PublishedBy s q r k

theorem invariant_initial : Invariant (State.initial : State π) where
  workshop :=
    { known := by intro k h; cases h
      building := by intro p r k todo h; cases h
      apart := by intro p q r r' k todo todo' h; cases h }
  shared := .inl { published := rfl, calls := fun _ => trivial }

theorem Invariant.agreement {s : State π} (h : Invariant s) : Agreement s := by
  intro p request created d hcall
  obtain hnone | ⟨q, r, k, hk⟩ := h.shared
  · have hearly := hnone.calls p
    rw [hcall] at hearly
    exact hearly.elim
  · obtain ⟨e, he⟩ := hk.created
    have hshown : r.Shown k e := by
      have hof := hk.calls q
      rwa [he] at hof
    have hdirectory : e.directory = k := hshown.directory
    refine ⟨q, r, e, he, hk.unique, ?_, ?_, ?_⟩
    · rw [hdirectory]
      exact hk.published
    · rw [hdirectory]
      exact hk.built.complete hk.fits
    · have hof := hk.calls p
      rw [hcall] at hof
      rwa [hdirectory]

theorem PublishedBy.flowOf {s : State π} {q : π} {r : Request} {k : Nat}
    (h : PublishedBy s q r k) : (s.flowOf k).Initialised r.config k := by
  obtain ⟨f, hf, hinit⟩ := h.built.flow
  rwa [State.flowOf, hf]

/-- A call that is past the data file has found a flow. -/
theorem not_early {s : State π} {p : π} {request : Option Request} {phase : OpenPhase}
    (hcall : s.calls p = .opening request phase) (hphase : phase ≠ .start) : ¬ Unpublished s := by
  intro hnone
  have hearly := hnone.calls p
  rw [hcall] at hearly
  exact hphase hearly

theorem PublishedBy.phase {s : State π} {p q : π} {r : Request} {k : Nat}
    (h : PublishedBy s q r k) {request : Option Request} {phase : OpenPhase}
    (hcall : s.calls p = .opening request phase) : phase.Of r k := by
  have hof := h.calls p
  rwa [hcall] at hof

/-! ### What `openFlow` returns -/

theorem discrete_of_format {r : Request} (hr : r.supported = true)
    (h : mxlIsDiscreteDataFormat r.config.common.format = true) : ∃ r', r = .discrete r' := by
  cases r with
  | discrete r => exact ⟨r, rfl⟩
  | continuous r =>
    have hformat : mxlIsContinuousDataFormat (sanitizeFlowFormat r.flowFormat) = true := hr
    have hdiscrete : mxlIsDiscreteDataFormat (sanitizeFlowFormat r.flowFormat) = true := h
    generalize sanitizeFlowFormat r.flowFormat = format at hformat hdiscrete
    cases format with
    | audio => cases hdiscrete
    | _ => cases hformat

theorem continuous_of_format {r : Request} (hr : r.supported = true)
    (h : mxlIsContinuousDataFormat r.config.common.format = true) : ∃ r', r = .continuous r' := by
  cases r with
  | continuous r => exact ⟨r, rfl⟩
  | discrete r =>
    have hformat : mxlIsDiscreteDataFormat (sanitizeFlowFormat r.flowFormat) = true := hr
    have hcontinuous : mxlIsContinuousDataFormat (sanitizeFlowFormat r.flowFormat) = true := h
    generalize sanitizeFlowFormat r.flowFormat = format at hformat hcontinuous
    cases format with
    | audio => cases hformat
    | _ => cases hcontinuous

/-- With all grains behind it, `openFlow` returns the published flow. -/
theorem PublishedBy.shown_grains {s : State π} {p q : π} {r : Request} {k j i : Nat}
    {count : UInt32} {request : Option Request} (h : PublishedBy s q r k)
    (hcall : s.calls p = .opening request (.grains j count i)) (hi : ¬ i < count.toNat) :
    r.Shown k { directory := j, flow := s.flowOf j, grains := i } := by
  obtain ⟨rfl, hdiscrete, rfl, hle⟩ := h.phase hcall
  obtain ⟨r, rfl⟩ := discrete_of_format h.supported hdiscrete
  exact ⟨rfl, h.flowOf, Nat.not_lt.mp hi⟩

/-- With the channel buffers mapped, `openFlow` returns the published flow. -/
theorem PublishedBy.shown_channels {s : State π} {p q : π} {r : Request} {k j : Nat}
    {mappedSize : UInt64} {request : Option Request} (h : PublishedBy s q r k)
    (hcall : s.calls p = .opening request (.channels j))
    (hmapped : (s.published.bind fun base => (s.directories base).channels) = some mappedSize) :
    r.Shown k
      { directory := j, flow := s.flowOf j,
        sampleWordSize := sampleWordSize mappedSize (s.flowOf j).info.config.buffersLength } := by
  obtain ⟨rfl, hcontinuous⟩ := h.phase hcall
  obtain ⟨r, rfl⟩ := continuous_of_format h.supported hcontinuous
  obtain ⟨bytes, hchannels, hword⟩ := Request.Allocated.sampleWordSize h.built.allocated h.fits
  have hsize : mappedSize = bytes := by
    rw [h.published, Option.bind_some, hchannels] at hmapped
    exact (Option.some.inj hmapped).symm
  refine ⟨rfl, h.flowOf, ?_⟩
  rw [h.flowOf.config, hsize]
  exact hword

/-! ### Steps that only move a call on -/

variable [DecidableEq π]

@[simp] theorem setCall_calls (s : State π) (p : π) (c : Call) :
    (s.setCall p c).calls = Function.update s.calls p c := rfl

@[simp] theorem setCall_directories (s : State π) (p : π) (c : Call) :
    (s.setCall p c).directories = s.directories := rfl

/-- A call that neither builds nor has created the flow. -/
def Call.Onward : Call → Prop
  | .building _ _ _ => False
  | .returned _ created _ => created = false
  | _ => True

theorem update_cases {α : Type*} {f : π → α} {p q : π} {a b : α}
    (h : Function.update f p a q = b) : q = p ∧ a = b ∨ q ≠ p ∧ f q = b := by
  by_cases hq : q = p
  · subst hq
    exact .inl ⟨rfl, by rwa [Function.update_self] at h⟩
  · exact .inr ⟨hq, by rwa [Function.update_of_ne hq] at h⟩

theorem Workshop.setCall {s : State π} (h : Workshop s) (p : π) {c : Call} (hc : c.Onward) :
    Workshop (s.setCall p c) where
  known := h.known
  building := by
    intro q r k todo hcall
    obtain ⟨-, rfl⟩ | ⟨-, hcall⟩ := update_cases hcall
    · exact hc.elim
    · exact h.building q r k todo hcall
  apart := by
    intro q q' r r' k todo todo' hcall hcall'
    obtain ⟨-, rfl⟩ | ⟨-, hcall⟩ := update_cases hcall
    · exact hc.elim
    obtain ⟨-, rfl⟩ | ⟨-, hcall'⟩ := update_cases hcall'
    · exact hc.elim
    · exact h.apart q q' r r' k todo todo' hcall hcall'

theorem Unpublished.setCall {s : State π} (h : Unpublished s) (p : π) {c : Call} (hc : c.Early) :
    Unpublished (s.setCall p c) where
  published := h.published
  calls := by
    rw [setCall_calls]
    exact (Function.forall_update_iff s.calls fun _ c => c.Early).mpr ⟨hc, fun q _ => h.calls q⟩

theorem PublishedBy.setCall {s : State π} {p q : π} {r : Request} {k : Nat}
    (h : PublishedBy s q r k) (hp : ∀ request created e, s.calls p ≠ .returned request created e)
    {c : Call} (hc : ∀ request e, c ≠ .returned request true e) (hof : c.Of r k) :
    PublishedBy (s.setCall p c) q r k where
  published := h.published
  created := by
    obtain ⟨e, he⟩ := h.created
    have hqp : q ≠ p := by
      rintro rfl
      exact hp _ _ _ he
    exact ⟨e, by rw [setCall_calls, Function.update_of_ne hqp, he]⟩
  unique := by
    intro q' request e hcall
    obtain ⟨-, hcall⟩ | ⟨-, hcall⟩ := update_cases hcall
    · exact absurd hcall (hc request e)
    · exact h.unique q' request e hcall
  supported := h.supported
  built := h.built
  fits := h.fits
  calls := by
    rw [setCall_calls]
    exact (Function.forall_update_iff s.calls fun _ c => c.Of r k).mpr ⟨hof, fun q _ => h.calls q⟩

/-- Call `p`, which has not returned, moves on to where the flow lets it. -/
def Moves (s : State π) (p : π) (t : State π) : Prop :=
  (∀ request created e, s.calls p ≠ .returned request created e) ∧
    ∃ c : Call, t = s.setCall p c ∧ c.Onward ∧ (Unpublished s → c.Early) ∧
      ∀ q r k, PublishedBy s q r k → c.Of r k

theorem Invariant.moves {s t : State π} {p : π} (h : Invariant s) (hmoves : Moves s p t) :
    Invariant t := by
  obtain ⟨hp, c, rfl, honward, hearly, hof⟩ := hmoves
  refine ⟨h.workshop.setCall p honward, ?_⟩
  obtain hnone | ⟨q, r, k, hk⟩ := h.shared
  · exact .inl (hnone.setCall p (hearly hnone))
  · have hc : ∀ request e, c ≠ .returned request true e := by
      rintro request e rfl
      cases honward
    exact .inr ⟨q, r, k, hk.setCall hp hc (hof q r k hk)⟩

theorem moves_failed {s t : State π} {p : π}
    (hp : ∀ request created e, s.calls p ≠ .returned request created e)
    (h : some (s.setCall p .failed) = some t) : Moves s p t := by
  obtain rfl := Option.some.inj h
  exact ⟨hp, .failed, rfl, trivial, fun _ => trivial, fun _ _ _ _ => trivial⟩

theorem not_returned {c : Call} {request : Option Request} {phase : OpenPhase}
    (h : c = .opening request phase) : ∀ request created e, c ≠ .returned request created e := by
  rintro request created e rfl
  cases h

theorem moves_openFlow {s t : State π} {p : π} (h : openFlow s p = some t) : Moves s p t := by
  unfold openFlow at h
  split at h
  case h_1 hidle =>
    obtain rfl := Option.some.inj h
    have hp : ∀ request created e, s.calls p ≠ .returned request created e := by
      simp [hidle]
    exact ⟨hp, _, rfl, trivial, fun _ => rfl, fun _ _ _ _ => trivial⟩
  case h_2 => cases h

theorem moves_openDataFile {s t : State π} {p : π} (h : openDataFile s p = some t) :
    Moves s p t := by
  unfold openDataFile at h
  split at h
  case h_2 => cases h
  case h_1 request hcall =>
    have hp := not_returned hcall
    split at h
    case h_2 =>
      exact moves_failed hp h
    case h_1 j hj =>
      split_ifs at h
      · obtain rfl := Option.some.inj h
        refine ⟨hp, _, rfl, trivial, ?_, ?_⟩
        · intro hnone
          rw [hnone.published] at hj
          cases hj
        · intro q r k hk
          rw [hk.published] at hj
          exact (Option.some.inj hj).symm
      · exact moves_failed hp h

/-- A call that is past the data file moves on through the published flow. -/
theorem moves_late {s t : State π} {p : π} {request : Option Request} {phase : OpenPhase}
    (hcall : s.calls p = .opening request phase) (hphase : phase ≠ .start) {c : Call}
    (h : some (s.setCall p c) = some t) (honward : c.Onward)
    (hof : ∀ q r k, PublishedBy s q r k → c.Of r k) : Moves s p t := by
  obtain rfl := Option.some.inj h
  exact ⟨not_returned hcall, c, rfl, honward, fun hnone => (not_early hcall hphase hnone).elim, hof⟩

theorem moves_checkFlow {s t : State π} {p : π} (h : checkFlow s p = some t) : Moves s p t := by
  unfold checkFlow at h
  split at h
  case h_2 => cases h
  case h_1 request j hcall =>
    have hp := not_returned hcall
    have hopened : ∀ q r k, PublishedBy s q r k → j = k := fun q r k hk => hk.phase hcall
    have hconfig : ∀ q r k, PublishedBy s q r k → (s.flowOf j).info.config = r.config := by
      intro q r k hk
      obtain rfl := hopened q r k hk
      exact hk.flowOf.config
    simp only at h
    split_ifs at h with hversion hdiscrete hdirectory hcontinuous
    · exact moves_failed hp h
    · exact moves_failed hp h
    · refine moves_late hcall nofun h trivial ?_
      intro q r k hk
      rw [hconfig q r k hk] at hdiscrete ⊢
      exact ⟨hopened q r k hk, hdiscrete, rfl, Nat.zero_le _⟩
    · refine moves_late hcall nofun h trivial ?_
      intro q r k hk
      rw [hconfig q r k hk] at hcontinuous
      exact ⟨hopened q r k hk, hcontinuous⟩
    · exact moves_failed hp h

theorem moves_openGrain {s t : State π} {p : π} (h : openGrain s p = some t) : Moves s p t := by
  unfold openGrain at h
  split at h
  case h_2 => cases h
  case h_1 request j count i hcall =>
    have hp := not_returned hcall
    split_ifs at h with hi
    split at h
    case h_2 =>
      exact moves_failed hp h
    case h_1 grain hgrain =>
      split_ifs at h with hversion
      · exact moves_failed hp h
      · refine moves_late hcall nofun h trivial ?_
        intro q r k hk
        obtain ⟨hj, hdiscrete, hcount, -⟩ := hk.phase hcall
        exact ⟨hj, hdiscrete, hcount, hi⟩

theorem moves_finish {s t : State π} {p : π} (h : finish s p = some t) : Moves s p t := by
  unfold finish at h
  split at h
  case h_3 => cases h
  case h_1 request j count i hcall =>
    have hp := not_returned hcall
    split_ifs at h with hi
    split at h
    case h_1 =>
      exact moves_failed hp h
    case h_2 =>
      refine moves_late hcall nofun h rfl ?_
      intro q r k hk
      exact hk.shown_grains hcall hi
  case h_2 request j hcall =>
    have hp := not_returned hcall
    simp only at h
    split at h
    case h_2 =>
      exact moves_failed hp h
    case h_1 mappedSize hmapped =>
      split_ifs at h with hlength
      · exact moves_failed hp h
      · split at h
        case h_1 =>
          exact moves_failed hp h
        case h_2 =>
          refine moves_late hcall nofun h rfl ?_
          intro q r k hk
          exact hk.shown_channels hcall hmapped

theorem moves_fail {s t : State π} {p : π} (h : fail s p = some t) : Moves s p t := by
  unfold fail at h
  split at h
  case h_1 hcall =>
    exact moves_failed (by simp [hcall]) h
  case h_2 hcall =>
    exact moves_failed (not_returned hcall) h
  case h_3 => cases h

/-! ### The steps of a creation -/

theorem Workshop.createOrOpen {s : State π} (h : Workshop s) (p : π) {request : Request}
    (hr : request.supported = true) :
    Workshop (State.setCall { s with
      nextDirectory := s.nextDirectory + 1
      directories := Function.update s.directories s.nextDirectory {} } p
        (.building request s.nextDirectory (request.steps s.nextDirectory))) where
  known := fun k hk => Nat.lt_succ_of_lt (h.known k hk)
  building := by
    intro q r k todo hcall
    obtain ⟨-, hcall⟩ | ⟨-, hcall⟩ := update_cases hcall
    · cases hcall
      refine ⟨Nat.lt_succ_self _, fun hk => (h.known _ hk).false, hr, ?_⟩
      simpa using finishes_steps request s.nextDirectory
    · obtain ⟨hlt, hpublished, hsupported, hfinishes⟩ := h.building q r k todo hcall
      refine ⟨Nat.lt_succ_of_lt hlt, hpublished, hsupported, ?_⟩
      simpa [Function.update_of_ne hlt.ne] using hfinishes
  apart := by
    intro q q' r r' k todo todo' hcall hcall'
    obtain ⟨hq, hnew⟩ | ⟨-, hcall⟩ := update_cases hcall
    · cases hnew
      obtain ⟨hq', -⟩ | ⟨-, hcall'⟩ := update_cases hcall'
      · rw [hq, hq']
      · exact (h.building _ _ _ _ hcall').1.false.elim
    · obtain ⟨-, hnew⟩ | ⟨-, hcall'⟩ := update_cases hcall'
      · cases hnew
        exact (h.building _ _ _ _ hcall).1.false.elim
      · exact h.apart q q' r r' k todo todo' hcall hcall'

theorem Workshop.build {s : State π} (h : Workshop s) {p : π} {request : Request} {k : Nat}
    {f : BuildStep} {todo : List BuildStep} (hcall : s.calls p = .building request k (f :: todo))
    {now : UInt64} {d : Directory} (hd : f now (s.directories k) = some d) :
    Workshop (State.setCall { s with directories := Function.update s.directories k d } p
      (.building request k todo)) where
  known := h.known
  building := by
    obtain ⟨hlt, hpublished, hsupported, hfinishes⟩ := h.building _ _ _ _ hcall
    intro q r j todo' hcall'
    obtain ⟨-, hnew⟩ | ⟨hq, hold⟩ := update_cases hcall'
    · cases hnew
      refine ⟨hlt, hpublished, hsupported, ?_⟩
      simpa using hfinishes now d hd
    · obtain ⟨hlt', hpublished', hsupported', hfinishes'⟩ := h.building _ _ _ _ hold
      have hj : j ≠ k := by
        rintro rfl
        exact hq (h.apart _ _ _ _ _ _ _ hold hcall)
      refine ⟨hlt', hpublished', hsupported', ?_⟩
      simpa [Function.update_of_ne hj] using hfinishes'
  apart := by
    intro q q' r r' j todo₁ todo₂ hcall₁ hcall₂
    obtain ⟨hq, hnew⟩ | ⟨-, hold⟩ := update_cases hcall₁
    · cases hnew
      obtain ⟨hq', -⟩ | ⟨-, hold'⟩ := update_cases hcall₂
      · rw [hq, hq']
      · rw [hq, h.apart _ _ _ _ _ _ _ hold' hcall]
    · obtain ⟨hq', hnew⟩ | ⟨-, hold'⟩ := update_cases hcall₂
      · cases hnew
        rw [hq', h.apart _ _ _ _ _ _ _ hold hcall]
      · exact h.apart q q' r r' j todo₁ todo₂ hold hold'

/-- Directories that are not published are nobody's business but their builder's. -/
theorem PublishedBy.build {s : State π} {p q : π} {r : Request} {k : Nat}
    (h : PublishedBy s q r k) (hp : ∀ request created e, s.calls p ≠ .returned request created e)
    {ds : Nat → Directory} (hk : ds k = s.directories k) {n j : Nat} {request : Request}
    {todo : List BuildStep} :
    PublishedBy (State.setCall { s with nextDirectory := n, directories := ds } p
      (.building request j todo)) q r k := by
  have hbuilt : r.Built k (ds k) := by
    rw [hk]
    exact h.built
  have hsame : PublishedBy { s with nextDirectory := n, directories := ds } q r k :=
    { h with built := hbuilt }
  have hbuilding : ∀ request' e, Call.building request j todo ≠ .returned request' true e := by
    intro request' e heq
    cases heq
  exact hsame.setCall hp hbuilding trivial

theorem Unpublished.build {s : State π} {p : π} (h : Unpublished s) {ds : Nat → Directory}
    {n j : Nat} {request : Request} {todo : List BuildStep} :
    Unpublished (State.setCall { s with nextDirectory := n, directories := ds } p
      (.building request j todo)) := by
  have hsame : Unpublished { s with nextDirectory := n, directories := ds } :=
    ⟨h.published, h.calls⟩
  exact hsame.setCall p trivial

theorem Invariant.createOrOpen {s t : State π} {p : π} {request : Request} (h : Invariant s)
    (hstep : createOrOpen s p request = some t) : Invariant t := by
  unfold FlowCreation.createOrOpen at hstep
  split at hstep
  case h_2 => cases hstep
  case h_1 hidle =>
    have hp : ∀ request created e, s.calls p ≠ .returned request created e := by
      simp [hidle]
    split_ifs at hstep with hr
    · obtain rfl := Option.some.inj hstep
      refine ⟨h.workshop.createOrOpen p hr, ?_⟩
      obtain hnone | ⟨q, r, k, hk⟩ := h.shared
      · exact .inl (hnone.build)
      · have hne : k ≠ s.nextDirectory := (h.workshop.known k hk.published).ne
        exact .inr ⟨q, r, k, hk.build hp (Function.update_of_ne hne _ _)⟩
    · exact h.moves (moves_failed hp hstep)

theorem Invariant.build {s t : State π} {p : π} {now : UInt64} (h : Invariant s)
    (hstep : build s p now = some t) : Invariant t := by
  unfold FlowCreation.build at hstep
  split at hstep
  case h_2 => cases hstep
  case h_1 request j f todo hcall =>
    have hp : ∀ request created e, s.calls p ≠ .returned request created e := by
      simp [hcall]
    split at hstep
    case h_2 => exact h.moves (moves_failed hp hstep)
    case h_1 d hd =>
      obtain rfl := Option.some.inj hstep
      refine ⟨h.workshop.build hcall hd, ?_⟩
      obtain hnone | ⟨q, r, k, hk⟩ := h.shared
      · exact .inl (hnone.build)
      · have hne : k ≠ j := by
          rintro rfl
          exact (h.workshop.building _ _ _ _ hcall).2.1 hk.published
        exact .inr ⟨q, r, k, hk.build hp (Function.update_of_ne hne _ _)⟩

/-! ### Publication -/

/-- The state once the directory `k` of call `p` is at the flow's path. -/
def State.publishing (s : State π) (p : π) (request : Request) (k : Nat) : State π :=
  { s with published := some k }.setCall p
    (.returned (some request) true (request.created k (s.flowOf k)))

theorem of_publish {s t : State π} {p : π} (h : publish s p = some t) :
    ∃ request k, s.calls p = .building request k [] ∧
      (s.published = none ∧ t = s.publishing p request k ∨
        s.published.isSome = true ∧ t = s.setCall p (.opening (some request) .start)) := by
  unfold publish at h
  split at h
  case h_2 => cases h
  case h_1 request k hcall =>
    refine ⟨request, k, hcall, ?_⟩
    split at h
    case h_1 hnone => exact .inl ⟨hnone, (Option.some.inj h).symm⟩
    case h_2 j hj => exact .inr ⟨by rw [hj]; rfl, (Option.some.inj h).symm⟩

theorem Workshop.publishing {s : State π} (h : Workshop s) {p : π} {request : Request} {k : Nat}
    (hcall : s.calls p = .building request k []) : Workshop (s.publishing p request k) where
  known := by
    rintro j hj
    cases hj
    exact (h.building _ _ _ _ hcall).1
  building := by
    intro q r j todo hcall'
    obtain ⟨-, hnew⟩ | ⟨hq, hold⟩ := update_cases hcall'
    · cases hnew
    · obtain ⟨hlt, -, hsupported, hfinishes⟩ := h.building _ _ _ _ hold
      refine ⟨hlt, ?_, hsupported, hfinishes⟩
      rintro hj
      cases hj
      exact hq (h.apart _ _ _ _ _ _ _ hold hcall)
  apart := by
    intro q q' r r' j todo todo' hcall₁ hcall₂
    obtain ⟨-, hnew⟩ | ⟨-, hold⟩ := update_cases hcall₁
    · cases hnew
    obtain ⟨-, hnew⟩ | ⟨-, hold'⟩ := update_cases hcall₂
    · cases hnew
    · exact h.apart q q' r r' j todo todo' hold hold'

omit [DecidableEq π] in
/-- What the winner returns is the flow it has built. -/
theorem Request.Built.shown_created {s : State π} {r : Request} {k : Nat}
    (h : r.Built k (s.directories k)) : r.Shown k (r.created k (s.flowOf k)) := by
  have hflow : (s.flowOf k).Initialised r.config k := by
    obtain ⟨f, hf, hinit⟩ := h.flow
    rwa [State.flowOf, hf]
  cases r with
  | discrete r =>
    exact ⟨rfl, hflow, toNat_grainCount_le r⟩
  | continuous r => exact ⟨rfl, hflow, rfl⟩

theorem PublishedBy.publishing {s : State π} (h : Workshop s) (hnone : Unpublished s) {p : π}
    {r : Request} {k : Nat} (hcall : s.calls p = .building r k []) (hfits : r.Fits) :
    PublishedBy (s.publishing p r k) p r k where
  published := rfl
  created := ⟨_, Function.update_self _ _ _⟩
  unique := by
    intro q request e hcall'
    obtain ⟨hq, -⟩ | ⟨-, hold⟩ := update_cases hcall'
    · exact hq
    · have hearly := hnone.calls q
      rw [hold] at hearly
      exact hearly.elim
  supported := (h.building _ _ _ _ hcall).2.2.1
  built := (h.building _ _ _ _ hcall).2.2.2
  fits := hfits
  calls := by
    have hbuilt : r.Built k (s.directories k) := (h.building _ _ _ _ hcall).2.2.2
    refine (Function.forall_update_iff s.calls fun _ c => c.Of r k).mpr
      ⟨hbuilt.shown_created, fun q _ => ?_⟩
    have hearly := hnone.calls q
    cases hq : s.calls q with
    | opening request phase =>
      rw [hq] at hearly
      obtain rfl : phase = .start := hearly
      trivial
    | returned request created d =>
      rw [hq] at hearly
      exact hearly.elim
    | _ => trivial

omit [DecidableEq π] in
theorem PublishedBy.isSome {s : State π} {q : π} {r : Request} {k : Nat}
    (h : PublishedBy s q r k) : s.published.isSome = true := by
  rw [h.published]
  rfl

/-- A directory may be published if it holds a discrete flow or one that fits. -/
def PublishesFitting (s : State π) : Action π → Prop
  | .publish p =>
      match s.calls p, s.published with
      | .building request _ [], none => request.Fits
      | _, _ => True
  | _ => True

omit [DecidableEq π] in
theorem publishesFitting_iff {s : State π} {p : π} {request : Request} {k : Nat}
    (hcall : s.calls p = .building request k []) (hnone : s.published = none) :
    PublishesFitting s (.publish p) ↔ request.Fits := by
  simp only [PublishesFitting, hcall, hnone]

theorem Invariant.publish {s t : State π} {p : π} (h : Invariant s)
    (hfits : PublishesFitting s (.publish p)) (hstep : publish s p = some t) : Invariant t := by
  obtain ⟨request, k, hcall, ⟨hpublished, rfl⟩ | ⟨hpublished, rfl⟩⟩ := of_publish hstep
  · rw [publishesFitting_iff hcall hpublished] at hfits
    refine ⟨h.workshop.publishing hcall, ?_⟩
    obtain hnone | ⟨q, r, j, hj⟩ := h.shared
    · exact .inr ⟨p, request, k, PublishedBy.publishing h.workshop hnone hcall hfits⟩
    · have hsome := hj.isSome
      rw [hpublished] at hsome
      cases hsome
  · have hp : ∀ request created e, s.calls p ≠ .returned request created e := by
      simp [hcall]
    exact h.moves ⟨hp, _, rfl, trivial, fun _ => rfl, fun _ _ _ _ => trivial⟩

/-- A step keeps the invariant if it publishes nothing that does not fit. -/
theorem invariant_step {s t : State π} {a : Action π} (h : Invariant s)
    (hfits : PublishesFitting s a) (hstep : step s a = some t) : Invariant t := by
  cases a with
  | createOrOpen p request => exact h.createOrOpen hstep
  | openFlow p => exact h.moves (moves_openFlow hstep)
  | build p now => exact h.build hstep
  | publish p => exact h.publish hfits hstep
  | openDataFile p => exact h.moves (moves_openDataFile hstep)
  | checkFlow p => exact h.moves (moves_checkFlow hstep)
  | openGrain p => exact h.moves (moves_openGrain hstep)
  | finish p => exact h.moves (moves_finish hstep)
  | fail p => exact h.moves (moves_fail hstep)

/-- Who publishes a continuous flow that does not fit hands out channel buffers that
    are too small. -/
theorem disagreement_of_publish {s t : State π} {p : π} (h : Invariant s)
    (hfits : ¬ PublishesFitting s (.publish p)) (hstep : publish s p = some t) :
    ¬ Agreement t := by
  obtain ⟨request, k, hcall, ⟨hpublished, rfl⟩ | ⟨hpublished, rfl⟩⟩ := of_publish hstep
  · rw [publishesFitting_iff hcall hpublished] at hfits
    intro hagree
    have hp : (s.publishing p request k).calls p =
        .returned (some request) true (request.created k (s.flowOf k)) :=
      Function.update_self _ _ _
    obtain ⟨q, r, e, he, hunique, hk, hcomplete, -⟩ := hagree p _ _ _ hp
    obtain rfl : p = q := hunique p _ _ hp
    obtain rfl : request = r := by
      rw [hp] at he
      cases he
      rfl
    have hdirectory : k = e.directory := Option.some.inj hk
    have hallocated : request.Allocated (s.directories e.directory) := by
      rw [← hdirectory]
      exact (h.workshop.building _ _ _ _ hcall).2.2.2.allocated
    exact hfits (hallocated.sized_iff.mp hcomplete.sized)
  · have hfits' : PublishesFitting s (.publish p) := by
      obtain ⟨j, hj⟩ := Option.isSome_iff_exists.mp hpublished
      simp [PublishesFitting, hj]
    exact absurd hfits' hfits

/-- **Agreement.**  In any run, all calls that succeed agree in every state on one flow
    that is completely set up, if and only if no continuous flow is published whose
    geometry does not fit. -/
theorem agreement_iff (as : List (Action π)) :
    Throughout step Agreement State.initial as ↔ Along step PublishesFitting State.initial as := by
  apply throughout_iff_along (J := Invariant)
  · intro s h
    exact h.agreement
  · intro s a t h hfits hstep
    exact invariant_step h hfits hstep
  · intro s a t h hfits hstep
    cases a with
    | publish p => exact disagreement_of_publish h hfits hstep
    | _ => exact absurd trivial hfits
  · exact invariant_initial

/-! ### A flow that does not fit -/

/-- An audio flow at 48 kHz with 200 ms of history and 220753 channels of 32-bit
    samples. -/
def wideRequest : ContinuousRequest where
  flowDef := "wide"
  flowFormat := .audio
  sampleRate := ⟨48000, 1⟩
  channelCount := 220753
  sampleWordSize := 4
  bufferLength := 19456
  maxSyncBatchSizeHint := 480
  maxCommitBatchSizeHint := 480

/-- A single call that creates the flow. -/
def wideRun : List (Action Unit) :=
  .createOrOpen () (.continuous wideRequest) :: List.replicate 11 (.build () 0) ++ [.publish ()]

theorem wide_disagreement : ¬ Throughout step Agreement State.initial wideRun := by
  intro h
  obtain ⟨s, hrun⟩ : ∃ s, run step State.initial wideRun = some s := ⟨_, rfl⟩
  have hs : s.calls () = .returned (some (.continuous wideRequest)) true
      ((Request.continuous wideRequest).created 0 (s.flowOf 0)) := by
    obtain rfl := Option.some.inj hrun
    rfl
  have hbytes : (s.directories 0).channels = some 12288 := by
    obtain rfl := Option.some.inj hrun
    rfl
  obtain ⟨q, r, e, he, -, hk, hcomplete, -⟩ := h.last hrun () _ _ _ hs
  rw [hs] at he
  cases he
  obtain ⟨bytes, hchannels, hsize⟩ := hcomplete.sized
  have hsame : bytes = 12288 := Option.some.inj (hchannels.symm.trans hbytes)
  rw [hsame] at hsize
  exact absurd hsize (by decide)

end MediaExchange.FlowCreation
