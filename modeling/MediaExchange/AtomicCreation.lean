/-
  MediaExchange/AtomicCreation.lean
  =================================
  **A flow is created as a whole or not at all** (`FlowManager.cpp`,
  `createFlowWriter` of `Instance.cpp`).

  One call of `createFlowWriter`, in a domain of any content: the temporary directory,
  the statements that build the flow in it, the rename to the flow's path, the opening
  of what is there already, and the writer.  Any statement may fail, for want of memory,
  of a lock or of a permission; what removes a temporary directory does not.  The name
  of the temporary directory is one that is not there, as `mkdtemp` sees to.
-/
import MediaExchange.Library.FailingPrograms
import MediaExchange.FlowSizing

namespace MediaExchange.AtomicCreation

open FailingPrograms FailingPrograms.Program
open FlowCreation

/-! ### The domain and the instance -/

structure State (ι : Type) where
  /-- The flow directories of the domain. -/
  flows : ι → Option Directory
  /-- The directories whose names begin with `.mxl-tmp-`. -/
  temporary : ℕ → Option Directory
  /-- The writers of the instance, with their reference counts. -/
  writers : ι → Option ℕ

variable {ι : Type} [DecidableEq ι]

abbrev Action (ι : Type) (α : Type) := Program (State ι) String α

omit [DecidableEq ι] in
def State.setTemporary (name : ℕ) (d : Option Directory) (s : State ι) : State ι :=
  { s with temporary := Function.update s.temporary name d }

def State.setWriter (id : ι) (references : ℕ) (s : State ι) : State ι :=
  { s with writers := Function.update s.writers id (some references) }

/-- `renameat2`: the temporary directory gets the flow's path. -/
def State.rename (name : ℕ) (id : ι) (s : State ι) : State ι :=
  { s with
    flows := Function.update s.flows id (s.temporary name)
    temporary := Function.update s.temporary name none }

/-! ### `FlowManager` -/

def createTemporaryFlowDirectory (name : ℕ) : Action ι PUnit := do
  attempt "Could not create temporary directory."
  modify (State.setTemporary name (some {}))

/-- The statements that build a flow in its temporary directory. -/
def build (name : ℕ) (now : UInt64) : List BuildStep → Action ι PUnit
  | [] => pure ⟨⟩
  | f :: todo => do
      attempt "Could not build the flow."
      let s ← get
      match (s.temporary name).bind (f now) with
      | none => throw "Attempt to open channel buffer with invalid geometry."
      | some d => do
          modify (State.setTemporary name (some d))
          build name now todo

/-- Whether the path of the flow was free. -/
def publishFlowDirectory (name : ℕ) (id : ι) : Action ι Bool := do
  attempt "Could not set the permissions of the flow directory."
  attempt "Failed to publish flow directory by renaming it to its public name."
  let s ← get
  match s.flows id with
  | some _ => pure false
  | none => do
      modify (State.rename name id)
      pure true

/-- `DiscreteFlowData` or `ContinuousFlowData`. -/
inductive FlowKind where
  | discrete
  | continuous
deriving DecidableEq

/-- The grains of a flow, opened one by one; `i` is the first of those that remain. -/
def openGrains (d : Directory) : ℕ → ℕ → Action ι PUnit
  | _, 0 => pure ⟨⟩
  | i, count + 1 => do
      attempt "Could not open shared memory segment."
      match d.grains[i]? with
      | none => throw "Could not open shared memory segment."
      | some grain =>
          if grain.info.version ≠ GRAIN_HEADER_VERSION then throw "Unsupported grain version"
          else openGrains d (i + 1) count

def openDiscreteFlow (d : Directory) (f : Flow) : Action ι FlowKind := do
  let grainCount := f.info.config.discrete.grainCount
  if 0 < grainCount ∧ d.grainDirectory = false then throw "Grain directory not found."
  else do
    openGrains d 0 grainCount.toNat
    pure .discrete

def openContinuousFlow (d : Directory) (f : Flow) : Action ι FlowKind :=
  if f.info.config.buffersLength = 0 then
    throw "Attempt to open channel buffer with invalid geometry."
  else do
    attempt "Could not open shared memory segment."
    match d.channels with
    | none => throw "Could not open shared memory segment."
    | some _ => pure .continuous

/-- `openFlow` in the directory of the flow. -/
def openDirectory (d : Directory) : Action ι FlowKind :=
  match d.flow with
  | none => throw "Flow file not found."
  | some f => do
      attempt "Could not open shared memory segment."
      if f.info.version ≠ FLOW_DATA_VERSION then throw "Unsupported flow data version"
      else if mxlIsDiscreteDataFormat f.info.config.common.format then openDiscreteFlow d f
      else if mxlIsContinuousDataFormat f.info.config.common.format then openContinuousFlow d f
      else throw "Attempt to open flow with unsupported data format."

def openFlow (id : ι) : Action ι FlowKind := do
  let s ← get
  match s.flows id with
  | none => throw "Flow file not found."
  | some d => openDirectory d

/-- The `dynamic_pointer_cast` of a flow that was there already. -/
def openExisting (id : ι) (kind : FlowKind) : Action ι Bool := do
  let existing ← openFlow id
  if existing = kind then pure false
  else throw "Could not open existing flow because it is of a different format"

/-- From the descriptor to the end of `createOrOpenDiscreteFlow` and
    `createOrOpenContinuousFlow`: whether the flow has been created. -/
def buildAndPublish (name : ℕ) (now : UInt64) (id : ι) (steps : List BuildStep) (kind : FlowKind) :
    Action ι Bool := do
  build name now steps
  if ← publishFlowDirectory name id then pure true else openExisting id kind

/-- The temporary directory is removed however the function ends. -/
def createOrOpenDiscreteFlow (name : ℕ) (now : UInt64) (id : ι) (r : DiscreteRequest) :
    Action ι Bool := do
  if mxlIsDiscreteDataFormat (sanitizeFlowFormat r.flowFormat) then do
    createTemporaryFlowDirectory name
    onExit (State.setTemporary name none)
      (buildAndPublish name now id (discreteSteps r name) .discrete)
  else throw "Attempt to create discrete flow with unsupported or non matching format."

/-- The temporary directory is removed if the function throws. -/
def createOrOpenContinuousFlow (name : ℕ) (now : UInt64) (id : ι) (r : ContinuousRequest) :
    Action ι Bool := do
  if mxlIsContinuousDataFormat (sanitizeFlowFormat r.flowFormat) then do
    createTemporaryFlowDirectory name
    onError (State.setTemporary name none)
      (buildAndPublish name now id (continuousSteps r name) .continuous)
  else throw "Attempt to create continuous flow with unsupported or non matching format."

def createOrOpenFlow (name : ℕ) (now : UInt64) (id : ι) : Request → Action ι Bool
  | .discrete r => createOrOpenDiscreteFlow name now id r
  | .continuous r => createOrOpenContinuousFlow name now id r

/-! ### `Instance` -/

/-- The writer for a flow: a reference to the one there is, or a new one.  The constructor
    of a discrete writer registers with the watcher, that of a continuous one checks
    its permissions. -/
def openWriter (id : ι) : Action ι PUnit := do
  let s ← get
  match s.writers id with
  | some references => modify (State.setWriter id (references + 1))
  | none => do
      attempt "Could not create the flow writer."
      attempt "Could not keep the flow writer."
      modify (State.setWriter id 1)

/-- `createFlowWriter`, behind the parsers. -/
def writeFlow (name : ℕ) (now : UInt64) (id : ι) (request : Request) : Action ι Bool := do
  let created ← createOrOpenFlow name now id request
  openWriter id
  pure created

/-- The id of a flow, by its definition. -/
def definitionId (uuid : String → Option ι) (root : JsonObject) : Option ι :=
  match fetchAs JsonValue.getString root "id" with
  | .error _ => none
  | .ok id => uuid id

/-- What the parsers make of a definition and of options, or why they do not. -/
def request (uuid : String → Option ι) (historyDuration : UInt64) (flowDef : String)
    (root : JsonObject) (document : Option JsonValue) : Except String (ι × Request) :=
  let isUuid := fun s => (uuid s).isSome
  let parsed : MachineArithmetic.Computation String Request := do
    let parser ← FlowSizing.parse isUuid root
    let options ← FlowSizing.parseOptions document
    FlowSizing.createOrOpenFlowData historyDuration flowDef parser options
  match parsed.result, definitionId uuid root with
  | .ok request, some id => .ok (id, request)
  | .error (.thrown error), _ => .error error
  | .error .divisionByZero, _ => .error "Division by zero."
  | .ok _, none => .error "Invalid flow 'id'."

/-- `createFlowWriter`. -/
def createFlowWriter (uuid : String → Option ι) (historyDuration : UInt64) (flowDef : String)
    (root : JsonObject) (document : Option JsonValue) (name : ℕ) (now : UInt64) : Action ι Bool :=
  match request uuid historyDuration flowDef root document with
  | .error error => throw error
  | .ok (id, request) => writeFlow name now id request

/-! ### Inside the temporary directory -/

section Temporary

variable {name : ℕ} {now : UInt64} {id : ι} {s : State ι} {d : Directory} {E : State ι → Prop}

omit [DecidableEq ι] in
@[simp] theorem setTemporary_setTemporary (d d' : Option Directory) :
    (s.setTemporary name d).setTemporary name d' = s.setTemporary name d' := by
  simp [State.setTemporary]

omit [DecidableEq ι] in
@[simp] theorem temporary_setTemporary (d : Option Directory) :
    (s.setTemporary name d).temporary name = d := by
  simp [State.setTemporary]

omit [DecidableEq ι] in
theorem setTemporary_self {d : Option Directory} (h : s.temporary name = d) :
    s.setTemporary name d = s := by
  rw [State.setTemporary, ← h, Function.update_eq_self]

/-- A state that differs in the temporary directory of the call at most. -/
def Inside (name : ℕ) (s t : State ι) : Prop := ∃ d, t = s.setTemporary name d

omit [DecidableEq ι] in
/-- Removing the directory takes everything back. -/
theorem removed_of_inside (hfresh : s.temporary name = none) (t : State ι) (h : Inside name s t) :
    t.setTemporary name none = s := by
  obtain ⟨d, rfl⟩ := h
  rw [setTemporary_setTemporary, setTemporary_self hfresh]

omit [DecidableEq ι] in
theorem ends_build (steps : List BuildStep) (d : Directory) :
    Ends (build name now steps) (s.setTemporary name (some d)) steps.length
      ((steps.foldlM (fun (d : Directory) (f : BuildStep) => f now d) d).map fun d' =>
        (⟨⟩, s.setTemporary name (some d'))) (Inside name s) := by
  induction steps generalizing d with
  | nil => exact Ends.pure _ _
  | cons f todo ih =>
    have hinside : Inside name s (s.setTemporary name (some d)) := ⟨some d, rfl⟩
    have hlength : 1 + (0 + todo.length) = (f :: todo).length := by
      rw [Nat.zero_add, Nat.add_comm, List.length_cons]
    refine Ends.of_eq ((Ends.attempt hinside).bind (Ends.get.bind ?_)) hlength
    rw [temporary_setTemporary, Option.bind_some, List.foldlM_cons]
    cases hf : f now d with
    | none => exact Ends.throw hinside
    | some d' =>
      refine Ends.of_eq ((Ends.modify _).bind ?_) (Nat.zero_add _)
      rw [setTemporary_setTemporary]
      exact ih d'

theorem ends_publishFlowDirectory (hE : E s) :
    Ends (publishFlowDirectory name id) s 2
      (some (match s.flows id with
        | some _ => (false, s)
        | none => (true, s.rename name id))) E := by
  have hcount : 1 + (1 + (0 + 0)) = 2 := rfl
  refine Ends.of_eq ((Ends.attempt hE).bind ((Ends.attempt hE).bind (Ends.get.bind ?_))) hcount
  cases s.flows id with
  | some d => exact Ends.pure _ _
  | none =>
    dsimp only
    exact Ends.of_eq (Ends.bind (Ends.modify (State.rename name id)) (Ends.pure true _))
      (Nat.zero_add 0)

end Temporary

/-! ### Opening what is there -/

section Existing

variable {id : ι} {s : State ι} {d : Directory} {E : State ι → Prop}

omit [DecidableEq ι] in
theorem ends_openGrains (hE : E s) (i count : ℕ) :
    ∃ result, Ends (openGrains d i count : Action ι PUnit) s count
      (Option.map (fun u => (u, s)) result) E := by
  induction count generalizing i with
  | zero => exact ⟨some ⟨⟩, Ends.pure _ _⟩
  | succ count ih =>
    obtain ⟨result, hresult⟩ := ih (i + 1)
    have hlength : 1 + count = count + 1 := Nat.add_comm _ _
    cases hgrain : d.grains[i]? with
    | none =>
      refine ⟨none, Ends.of_eq ((Ends.attempt hE).bind ?_) hlength⟩
      rw [hgrain]
      exact Ends.throw hE
    | some grain =>
      by_cases hversion : grain.info.version ≠ GRAIN_HEADER_VERSION
      · refine ⟨none, Ends.of_eq ((Ends.attempt hE).bind ?_) hlength⟩
        rw [hgrain]
        dsimp only
        rw [if_pos hversion]
        exact Ends.throw hE
      · refine ⟨result, Ends.of_eq ((Ends.attempt hE).bind ?_) hlength⟩
        rw [hgrain]
        dsimp only
        rw [if_neg hversion]
        exact hresult

/-- The directory of a flow that can be opened as a continuous one. -/
structure OpensAsContinuous (d : Directory) (f : Flow) : Prop where
  flow : d.flow = some f
  version : f.info.version = FLOW_DATA_VERSION
  continuous : mxlIsContinuousDataFormat f.info.config.common.format = true
  length : f.info.config.buffersLength ≠ 0
  channels : d.channels.isSome

/-- Opening a flow changes nothing; a continuous flow takes two attempts. -/
structure EndsOpen (m : Action ι FlowKind) (s : State ι) (E : State ι → Prop) (p : Prop) (n : ℕ) :
    Prop where
  ends : ∃ k result, Ends m s k (Option.map (fun kind => (kind, s)) result) E ∧
    (result = some .continuous ↔ p) ∧ (p → k = n)

omit [DecidableEq ι] in
theorem EndsOpen.throw (hE : E s) (e : String) {p : Prop} (hp : ¬ p) (n : ℕ) :
    EndsOpen (throw e : Action ι FlowKind) s E p n :=
  ⟨0, none, Ends.throw hE, iff_of_false nofun hp, fun h => absurd h hp⟩

omit [DecidableEq ι] in
theorem EndsOpen.congr {m : Action ι FlowKind} {p q : Prop} {n : ℕ} (h : EndsOpen m s E p n)
    (hpq : p ↔ q) : EndsOpen m s E q n := by
  obtain ⟨k, result, hends, hresult, hk⟩ := h.ends
  exact ⟨k, result, hends, hresult.trans hpq, fun hq => hk (hpq.mpr hq)⟩

omit [DecidableEq ι] in
theorem EndsOpen.attempt {m : Action ι FlowKind} {p : Prop} {n : ℕ} (hE : E s) (e : String)
    (h : EndsOpen m s E p n) : EndsOpen (attempt e >>= fun _ => m) s E p (n + 1) := by
  obtain ⟨k, result, hends, hresult, hk⟩ := h.ends
  exact ⟨1 + k, result, (Ends.attempt hE).bind hends, hresult,
    fun hp => by rw [hk hp, Nat.add_comm]⟩

omit [DecidableEq ι] in
theorem endsOpen_discrete (hE : E s) (f : Flow) (n : ℕ) :
    EndsOpen (openDiscreteFlow d f : Action ι FlowKind) s E False n := by
  unfold openDiscreteFlow
  dsimp only
  split
  · exact EndsOpen.throw hE _ id n
  · obtain ⟨result, hresult⟩ := @ends_openGrains ι s d E hE 0 f.info.config.discrete.grainCount.toNat
    cases result with
    | none => exact ⟨0, none, hresult.bind_none, iff_of_false nofun id, nofun⟩
    | some u => exact ⟨_, some .discrete, hresult.bind (Ends.pure _ _), iff_of_false nofun id, nofun⟩

omit [DecidableEq ι] in
theorem endsOpen_continuous (hE : E s) (f : Flow) :
    EndsOpen (openContinuousFlow d f : Action ι FlowKind) s E
      (f.info.config.buffersLength ≠ 0 ∧ d.channels.isSome) 1 := by
  unfold openContinuousFlow
  split
  · next hzero => exact EndsOpen.throw hE _ (fun h => h.1 hzero) 1
  · next hlength =>
    cases hchannels : d.channels with
    | none =>
      refine ⟨1 + 0, none, (Ends.attempt hE).bind ?_, iff_of_false nofun (fun h => ?_), fun _ => rfl⟩
      · exact Ends.throw hE
      · cases h.2
    | some bytes =>
      refine ⟨1 + 0, some .continuous, (Ends.attempt hE).bind ?_, iff_of_true rfl ⟨hlength, rfl⟩,
        fun _ => rfl⟩
      exact Ends.pure _ _

theorem exists_opensAsContinuous_iff {f : Flow} (hflow : d.flow = some f) :
    (∃ f, OpensAsContinuous d f) ↔ OpensAsContinuous d f := by
  constructor
  · rintro ⟨f', h⟩
    have hflow' := h.flow
    rw [hflow] at hflow'
    cases hflow'
    exact h
  · intro h
    exact ⟨f, h⟩

omit [DecidableEq ι] in
theorem endsOpen_openDirectory (hE : E s) :
    EndsOpen (openDirectory d : Action ι FlowKind) s E (∃ f, OpensAsContinuous d f) 2 := by
  unfold openDirectory
  cases hflow : d.flow with
  | none =>
    refine EndsOpen.throw hE _ ?_ 2
    rintro ⟨f, h⟩
    have hflow' := h.flow
    rw [hflow] at hflow'
    cases hflow'
  | some f =>
    dsimp only
    refine EndsOpen.congr (EndsOpen.attempt hE _ ?_) (exists_opensAsContinuous_iff hflow).symm
    split
    · next hversion => exact EndsOpen.throw hE _ (fun h => hversion h.version) 1
    · next hversion =>
      split
      · next hdiscrete =>
        refine (endsOpen_discrete hE f 1).congr (iff_of_false not_false fun h => ?_)
        exact FlowSizing.not_continuous_of_discrete hdiscrete h.continuous
      · split
        · next hcontinuous =>
          apply (endsOpen_continuous hE f).congr
          constructor
          · rintro ⟨hlength, hchannels⟩
            exact ⟨hflow, not_not.mp hversion, hcontinuous, hlength, hchannels⟩
          · intro h
            exact ⟨h.length, h.channels⟩
        · next hcontinuous => exact EndsOpen.throw hE _ (fun h => hcontinuous h.continuous) 1

omit [DecidableEq ι] in
theorem endsOpen_openFlow (hflow : s.flows id = some d) (hE : E s) :
    EndsOpen (openFlow id) s E (∃ f, OpensAsContinuous d f) 2 := by
  obtain ⟨k, result, hends, hresult, hk⟩ := (@endsOpen_openDirectory ι s d E hE).ends
  refine ⟨0 + k, result, Ends.get.bind ?_, hresult, fun hp => by rw [hk hp]⟩
  rw [hflow]
  exact hends

omit [DecidableEq ι] in
/-- What is there already is opened without a change, or not at all. -/
theorem ends_openExisting (kind : FlowKind) (hflow : s.flows id = some d) (hE : E s) :
    ∃ n result, Ends (openExisting id kind) s n (Option.map (fun created => (created, s)) result)
      E ∧ (result = none ∨ result = some false) ∧
      (kind = .continuous →
        (result ≠ none ↔ ∃ f, OpensAsContinuous d f) ∧ (result ≠ none → n = 2)) := by
  obtain ⟨k, opened, hends, hopened, hk⟩ := (endsOpen_openFlow hflow hE).ends
  cases opened with
  | none =>
    refine ⟨k, none, hends.bind_none, Or.inl rfl, fun _ => ⟨?_, fun h => absurd rfl h⟩⟩
    exact iff_of_false (fun h => h rfl) fun h => nomatch hopened.mpr h
  | some existing =>
    by_cases hkind : existing = kind
    · refine ⟨k + 0, some false, hends.bind ?_, Or.inr rfl, fun hcontinuous => ?_⟩
      · rw [if_pos hkind]
        exact Ends.pure _ _
      · subst hkind hcontinuous
        have hopens := hopened.mp rfl
        exact ⟨iff_of_true nofun hopens, fun _ => hk hopens⟩
    · refine ⟨k + 0, none, hends.bind ?_, Or.inl rfl, fun hcontinuous => ?_⟩
      · rw [if_neg hkind]
        exact Ends.throw hE
      · refine ⟨iff_of_false (fun h => h rfl) fun hopens => hkind ?_, fun h => absurd rfl h⟩
        rw [hcontinuous]
        exact Option.some.inj (hopened.mpr hopens)

end Existing

/-! ### Creating or opening -/

section CreateOrOpen

variable {name : ℕ} {now : UInt64} {id : ι} {s : State ι}

/-- The state with the flow in its place. -/
def State.published (name : ℕ) (id : ι) (d : Directory) (s : State ι) : State ι :=
  (s.setTemporary name (some d)).rename name id

/-- The path is free: the flow is built and renamed. -/
theorem ends_buildAndPublish_free (hfree : s.flows id = none) (steps : List BuildStep)
    (kind : FlowKind) :
    Ends (buildAndPublish name now id steps kind) (s.setTemporary name (some {}))
      (steps.length + 2)
      ((FlowSizing.execute now steps).map fun d => (true, s.published name id d))
      (Inside name s) := by
  have hbuild := @ends_build ι name now s steps {}
  change Ends _ _ _ ((FlowSizing.execute now steps).map _) _ at hbuild
  cases hexecute : FlowSizing.execute now steps with
  | none =>
    rw [hexecute] at hbuild
    exact hbuild.bind_none
  | some d =>
    rw [hexecute] at hbuild
    have hpublish := @ends_publishFlowDirectory ι _ name id (s.setTemporary name (some d))
      (Inside name s) ⟨some d, rfl⟩
    have hflows : (s.setTemporary name (some d)).flows id = none := hfree
    rw [hflows] at hpublish
    refine hbuild.bind (Ends.of_eq (hpublish.bind ?_) (Nat.add_zero 2))
    rw [if_pos rfl]
    exact Ends.pure _ _

/-- The path is taken: the flow is built, and the one that is there is opened. -/
theorem ends_buildAndPublish_taken {d₀ : Directory} (htaken : s.flows id = some d₀)
    (steps : List BuildStep) (kind : FlowKind) :
    ∃ n d, Ends (buildAndPublish name now id steps kind) (s.setTemporary name (some {})) n
      (Option.map (fun d => (false, s.setTemporary name (some d))) d) (Inside name s) ∧
      (kind = .continuous → (d ≠ none ↔ (FlowSizing.execute now steps).isSome ∧
        ∃ f, OpensAsContinuous d₀ f) ∧ (d ≠ none → n = steps.length + 4)) := by
  have hbuild := @ends_build ι name now s steps {}
  change Ends _ _ _ ((FlowSizing.execute now steps).map _) _ at hbuild
  cases hexecute : FlowSizing.execute now steps with
  | none =>
    rw [hexecute] at hbuild
    refine ⟨0, none, hbuild.bind_none, fun _ => ⟨?_, fun h => absurd rfl h⟩⟩
    exact iff_of_false (fun h => h rfl) fun h => nomatch h.1
  | some d =>
    rw [hexecute] at hbuild
    have hinside : Inside name s (s.setTemporary name (some d)) := ⟨some d, rfl⟩
    have hpublish := @ends_publishFlowDirectory ι _ name id (s.setTemporary name (some d))
      (Inside name s) hinside
    have hflows : (s.setTemporary name (some d)).flows id = some d₀ := htaken
    rw [hflows] at hpublish
    obtain ⟨n, result, hopen, hresult, hcontinuous⟩ := ends_openExisting kind hflows hinside
    refine ⟨steps.length + (2 + n), result.map fun _ => d, ?_, fun hkind => ?_⟩
    · refine hbuild.bind (hpublish.bind ?_)
      rw [if_neg Bool.false_ne_true]
      rcases hresult with rfl | rfl
      · exact hopen
      · exact hopen
    · obtain ⟨hopens, hn⟩ := hcontinuous hkind
      have hmap : Option.map (fun _ => d) result ≠ none ↔ result ≠ none := by
        rw [ne_eq, Option.map_eq_none_iff]
      rw [hmap, hopens]
      refine ⟨⟨fun h => ⟨rfl, h⟩, And.right⟩, fun h => ?_⟩
      rw [hn (hopens.mpr h)]

/-- What the statements of a request need in order to come to the end. -/
def Buildable : Request → Prop
  | .discrete _ => True
  | .continuous r => r.sampleWordSize ≠ 0 ∧ 0 < (Request.continuous r).config.buffersLength

theorem isSome_execute_iff (request : Request) :
    (FlowSizing.execute now (request.steps name)).isSome ↔ Buildable request := by
  cases request with
  | discrete r =>
    obtain ⟨d, hd⟩ := @FlowSizing.exists_execute_discrete name now r
    refine iff_of_true ?_ trivial
    rw [Request.steps, hd]
    rfl
  | continuous r => exact FlowSizing.execute_continuous_iff

@[simp] theorem temporary_published (d : Directory) :
    (s.published name id d).temporary name = none := by
  simp [State.published, State.rename]

omit [DecidableEq ι] in
theorem ends_createTemporaryFlowDirectory :
    Ends (createTemporaryFlowDirectory name) s 1 (some (⟨⟩, s.setTemporary name (some {})))
      (· = s) := by
  refine Ends.of_eq (Ends.bind (Ends.attempt rfl) ?_) (Nat.add_zero 1)
  exact Ends.modify _

/-- A discrete flow begins with the temporary directory. -/
theorem createOrOpenFlow_discrete {r : DiscreteRequest}
    (hsupported : (Request.discrete r).supported = true) :
    createOrOpenFlow name now id (.discrete r) = createTemporaryFlowDirectory name >>= fun _ =>
      onExit (State.setTemporary name none)
        (buildAndPublish name now id (discreteSteps r name) .discrete) :=
  if_pos hsupported

theorem createOrOpenFlow_continuous {r : ContinuousRequest}
    (hsupported : (Request.continuous r).supported = true) :
    createOrOpenFlow name now id (.continuous r) = createTemporaryFlowDirectory name >>= fun _ =>
      onError (State.setTemporary name none)
        (buildAndPublish name now id (continuousSteps r name) .continuous) :=
  if_pos hsupported

theorem ends_createOrOpenFlow_unsupported {request : Request} {n : ℕ}
    (hsupported : ¬ request.supported = true) :
    Ends (createOrOpenFlow name now id request) s n none (· = s) := by
  cases request with
  | discrete r =>
    have hthrow : createOrOpenFlow name now id (.discrete r) =
        throw "Attempt to create discrete flow with unsupported or non matching format." :=
      if_neg hsupported
    rw [hthrow]
    exact Ends.throw rfl
  | continuous r =>
    have hthrow : createOrOpenFlow name now id (.continuous r) =
        throw "Attempt to create continuous flow with unsupported or non matching format." :=
      if_neg hsupported
    rw [hthrow]
    exact Ends.throw rfl

/-- Into a free path a flow is put as a whole. -/
theorem ends_createOrOpenFlow_free (hfresh : s.temporary name = none) (hfree : s.flows id = none)
    {request : Request} (hsupported : request.supported = true) :
    Ends (createOrOpenFlow name now id request) s ((request.steps name).length + 3)
      ((FlowSizing.execute now (request.steps name)).map fun d => (true, s.published name id d))
      (· = s) := by
  have hcount : ∀ n, 1 + (n + 2) = n + 3 := fun n => Nat.add_comm 1 (n + 2)
  cases request with
  | discrete r =>
    have hbuilt : Ends (onExit (State.setTemporary name none)
        (buildAndPublish name now id (discreteSteps r name) .discrete)) _ _ _ (· = s) :=
      (ends_buildAndPublish_free hfree (discreteSteps r name) .discrete).onExit (removed_of_inside hfresh)
    -- the deferred removal finds the directory renamed
    have hpublished : ((fun result : Bool × State ι =>
        (result.1, result.2.setTemporary name none)) ∘ fun d => (true, s.published name id d)) =
          fun d => (true, s.published name id d) := by
      funext d
      rw [Function.comp_apply, setTemporary_self (temporary_published d)]
    rw [Option.map_map, hpublished] at hbuilt
    rw [createOrOpenFlow_discrete hsupported]
    exact Ends.of_eq (ends_createTemporaryFlowDirectory.bind hbuilt) (hcount _)
  | continuous r =>
    have hbuilt : Ends (onError (State.setTemporary name none)
        (buildAndPublish name now id (continuousSteps r name) .continuous)) _ _ _ (· = s) :=
      (ends_buildAndPublish_free hfree (continuousSteps r name) .continuous).onError (removed_of_inside hfresh)
    rw [createOrOpenFlow_continuous hsupported]
    exact Ends.of_eq (ends_createTemporaryFlowDirectory.bind hbuilt) (hcount _)

/-- A discrete flow that is there already: the temporary directory is removed in any case. -/
theorem ends_createOrOpenFlow_discrete {d₀ : Directory} (hfresh : s.temporary name = none)
    (htaken : s.flows id = some d₀) {r : DiscreteRequest}
    (hsupported : (Request.discrete r).supported = true) :
    ∃ n result, Ends (createOrOpenFlow name now id (.discrete r)) s n
      (Option.map (fun created => (created, s)) result) (· = s) := by
  obtain ⟨n, d, hends, -⟩ :=
    @ends_buildAndPublish_taken ι _ name now id s d₀ htaken (discreteSteps r name) .discrete
  have hbuilt : Ends (onExit (State.setTemporary name none)
      (buildAndPublish name now id (discreteSteps r name) .discrete)) _ _ _ (· = s) :=
    hends.onExit (removed_of_inside hfresh)
  have hback : ((fun result : Bool × State ι => (result.1, result.2.setTemporary name none)) ∘
      fun d => (false, s.setTemporary name (some d))) = fun _ : Directory => (false, s) := by
    funext d
    rw [Function.comp_apply, removed_of_inside hfresh _ ⟨some d, rfl⟩]
  rw [Option.map_map, hback] at hbuilt
  refine ⟨1 + n, d.map fun _ => false, ?_⟩
  rw [createOrOpenFlow_discrete hsupported, Option.map_map]
  exact ends_createTemporaryFlowDirectory.bind hbuilt

/-- A continuous flow that is there already: the temporary directory stays if it is opened. -/
theorem ends_createOrOpenFlow_continuous {d₀ : Directory} (hfresh : s.temporary name = none)
    (htaken : s.flows id = some d₀) {r : ContinuousRequest}
    (hsupported : (Request.continuous r).supported = true) :
    ∃ d, Ends (createOrOpenFlow name now id (.continuous r)) s ((continuousSteps r name).length + 5)
      (Option.map (fun d => (false, s.setTemporary name (some d))) d) (· = s) ∧
      (d ≠ none ↔ Buildable (.continuous r) ∧ ∃ f, OpensAsContinuous d₀ f) := by
  obtain ⟨n, d, hends, hcontinuous⟩ :=
    @ends_buildAndPublish_taken ι _ name now id s d₀ htaken (continuousSteps r name) .continuous
  obtain ⟨hopens, hn⟩ := hcontinuous rfl
  have hbuilt : Ends (onError (State.setTemporary name none)
      (buildAndPublish name now id (continuousSteps r name) .continuous)) _ _ _ (· = s) :=
    hends.onError (removed_of_inside hfresh)
  have hwhole : Ends (createOrOpenFlow name now id (.continuous r)) s (1 + n)
      (d.map fun d => (false, s.setTemporary name (some d))) (· = s) := by
    rw [createOrOpenFlow_continuous hsupported]
    exact ends_createTemporaryFlowDirectory.bind hbuilt
  refine ⟨d, ?_, hopens.trans (and_congr_left fun _ => isSome_execute_iff (.continuous r))⟩
  cases d with
  | none => exact hwhole.of_none
  | some d => exact Ends.of_eq hwhole (by rw [hn nofun, Nat.add_comm])

end CreateOrOpen

/-! ### All or nothing -/

section Atomic

variable {name : ℕ} {now : UInt64} {id : ι} {s t : State ι} {request : Request}
  {faults rest : List Bool}

/-- Nothing temporary of the call remains, and if it has thrown, the flows and the writers
    are what they were. -/
structure Atomic (name : ℕ) (s : State ι) (outcome : Except String Bool × List Bool × State ι) :
    Prop where
  removed : outcome.2.2.temporary name = none
  unchanged : ∀ error, outcome.1 = .error error →
    outcome.2.2.flows = s.flows ∧ outcome.2.2.writers = s.writers

/-- The attempts until the flow is in its place. -/
def publishAttempts (name : ℕ) (request : Request) : ℕ := (request.steps name).length + 3

/-- A new writer takes two attempts. -/
def writerAttempts (id : ι) (s : State ι) : ℕ := if (s.writers id).isSome then 0 else 2

/-- A flow that is put in its place gets its writer, and a continuous flow that is there
    already is not opened. -/
structure AtomicWhen (name : ℕ) (s : State ι) (faults : List Bool) (id : ι) (request : Request) :
    Prop where
  free : s.flows id = none → request.supported → Buildable request →
    Survives (publishAttempts name request) faults →
    Survives (publishAttempts name request + writerAttempts id s) faults
  taken : ∀ r d f, request = .continuous r → s.flows id = some d → OpensAsContinuous d f →
    request.supported → Buildable request → ¬ Survives (publishAttempts name request + 2) faults

theorem ends_openWriter {E : State ι → Prop} (hE : E s) :
    ∃ references, Ends (openWriter id) s (writerAttempts id s)
      (some (⟨⟩, s.setWriter id references)) E := by
  unfold writerAttempts
  cases hwriter : s.writers id with
  | some references =>
    refine ⟨references + 1, Ends.of_eq (Ends.get.bind ?_) (Nat.zero_add 0)⟩
    rw [hwriter]
    exact Ends.modify _
  | none =>
    have hcount : 0 + (1 + (1 + 0)) = 2 := rfl
    refine ⟨1, Ends.of_eq (Ends.get.bind ?_) hcount⟩
    rw [hwriter]
    exact (Ends.attempt hE).bind ((Ends.attempt hE).bind (Ends.modify _))

/-- Before the writer, a call that throws has changed nothing. -/
theorem atomic_of_throws {n : ℕ} {result : Option (Bool × State ι)}
    (hfresh : s.temporary name = none)
    (hends : Ends (createOrOpenFlow name now id request) s n result (· = s))
    (hfails : Survives n faults → result = none) :
    Atomic name s (writeFlow name now id request faults s) := by
  obtain ⟨error, rest, t, hrun, ht⟩ := hends.run_error hfails
  subst ht
  have hwhole : writeFlow name now id request faults t = (.error error, rest, t) :=
    bind_of_error hrun
  rw [hwhole]
  exact ⟨hfresh, fun _ _ => ⟨rfl, rfl⟩⟩

/-- The writer is the last thing that may fail. -/
theorem atomic_of_ok {created : Bool}
    (hrun : createOrOpenFlow name now id request faults s = (.ok created, rest, t))
    (hwriters : t.writers = s.writers) :
    Atomic name s (writeFlow name now id request faults s) ↔
      t.temporary name = none ∧ (t.flows ≠ s.flows → Survives (writerAttempts id s) rest) := by
  obtain ⟨references, hwriter⟩ := @ends_openWriter ι _ id t (· = t) rfl
  have hends : Ends (openWriter id >>= fun _ => pure created) t (writerAttempts id s)
      (some (created, t.setWriter id references)) (· = t) := by
    have hattempts : writerAttempts id t = writerAttempts id s := by
      rw [writerAttempts, hwriters, ← writerAttempts]
    rw [← hattempts]
    refine Ends.of_eq (hwriter.bind ?_) (Nat.add_zero _)
    exact Ends.pure created _
  have hwhole : writeFlow name now id request faults s =
      (openWriter id >>= fun _ => pure created : Action ι Bool) rest t := bind_of_ok hrun
  rw [hwhole]
  by_cases hsurvives : Survives (writerAttempts id s) rest
  · rw [hends.run_ok hsurvives]
    constructor
    · rintro ⟨hremoved, -⟩
      exact ⟨hremoved, fun _ => hsurvives⟩
    · rintro ⟨hremoved, -⟩
      exact ⟨hremoved, nofun⟩
  · obtain ⟨error, rest', u, hrun', rfl⟩ := hends.run_error fun h => absurd h hsurvives
    rw [hrun']
    constructor
    · rintro ⟨hremoved, hunchanged⟩
      exact ⟨hremoved, fun hne => absurd (hunchanged error rfl).1 hne⟩
    · rintro ⟨hremoved, hflows⟩
      exact ⟨hremoved, fun _ _ => ⟨by_contra fun hne => hsurvives (hflows hne), hwriters⟩⟩

/-- The path is free. -/
theorem atomic_free_iff (hfresh : s.temporary name = none) (hfree : s.flows id = none) :
    Atomic name s (writeFlow name now id request faults s) ↔
      AtomicWhen name s faults id request := by
  have hwhen : AtomicWhen name s faults id request ↔
      (request.supported → Buildable request → Survives (publishAttempts name request) faults →
        Survives (publishAttempts name request + writerAttempts id s) faults) := by
    refine ⟨fun h => h.free hfree, fun h => ⟨fun _ => h, fun r d f _ hflow => ?_⟩⟩
    rw [hfree] at hflow
    cases hflow
  rw [hwhen]
  by_cases hsupported : request.supported = true
  · have hends := @ends_createOrOpenFlow_free ι _ name now id s hfresh hfree request hsupported
    have hbuildable := @isSome_execute_iff name now request
    cases hexecute : FlowSizing.execute now (request.steps name) with
    | none =>
      rw [hexecute] at hends hbuildable
      apply iff_of_true (atomic_of_throws hfresh hends fun _ => rfl)
      intro _ hbuild
      cases hbuildable.mpr hbuild
    | some d =>
      rw [hexecute] at hends hbuildable
      by_cases hsurvives : Survives (publishAttempts name request) faults
      · have hflows : (s.published name id d).flows ≠ s.flows := by
          intro heq
          have hid := congrFun heq id
          rw [hfree] at hid
          simp [State.published, State.rename] at hid
        rw [atomic_of_ok (hends.run_ok hsurvives) rfl, survives_add]
        constructor
        · rintro ⟨-, hwriter⟩ _ _ hpublished
          exact ⟨hpublished, hwriter hflows⟩
        · intro h
          exact ⟨temporary_published d, fun _ => (h hsupported (hbuildable.mp rfl) hsurvives).2⟩
      · exact iff_of_true (atomic_of_throws hfresh hends fun h => absurd h hsurvives)
          fun _ _ h => absurd h hsurvives
  · have hends := @ends_createOrOpenFlow_unsupported ι _ name now id s request 0 hsupported
    exact iff_of_true (atomic_of_throws hfresh hends fun _ => rfl) fun h => absurd h hsupported

/-- The path is taken. -/
theorem atomic_taken_iff {d₀ : Directory} (hfresh : s.temporary name = none)
    (htaken : s.flows id = some d₀) :
    Atomic name s (writeFlow name now id request faults s) ↔
      AtomicWhen name s faults id request := by
  have hfree : ∀ {p : Prop}, s.flows id = none → p := by
    intro p h
    rw [htaken] at h
    cases h
  by_cases hsupported : request.supported = true
  · cases request with
    | discrete r =>
      obtain ⟨n, result, hends⟩ :=
        @ends_createOrOpenFlow_discrete ι _ name now id s d₀ hfresh htaken r hsupported
      have hatomic : Atomic name s (writeFlow name now id (.discrete r) faults s) := by
        cases result with
        | none => exact atomic_of_throws hfresh hends fun _ => rfl
        | some created =>
          by_cases hsurvives : Survives n faults
          · rw [atomic_of_ok (hends.run_ok hsurvives) rfl]
            exact ⟨hfresh, fun h => absurd rfl h⟩
          · exact atomic_of_throws hfresh hends fun h => absurd h hsurvives
      exact iff_of_true hatomic ⟨hfree, fun _ _ _ hrequest => nomatch hrequest⟩
    | continuous r =>
      obtain ⟨d, hends, hopens⟩ :=
        @ends_createOrOpenFlow_continuous ι _ name now id s d₀ hfresh htaken r hsupported
      have hwhen : AtomicWhen name s faults id (.continuous r) ↔
          (d ≠ none → ¬ Survives ((continuousSteps r name).length + 5) faults) := by
        constructor
        · intro h hd
          obtain ⟨hbuildable, f, hf⟩ := hopens.mp hd
          exact h.taken r d₀ f rfl htaken hf hsupported hbuildable
        · refine fun h => ⟨hfree, fun r' d' f hrequest hd' hf _ hbuildable => ?_⟩
          rw [htaken] at hd'
          cases hd'
          exact h (hopens.mpr ⟨hbuildable, f, hf⟩)
      rw [hwhen]
      cases d with
      | none => exact iff_of_true (atomic_of_throws hfresh hends fun _ => rfl) fun h => absurd rfl h
      | some d =>
        by_cases hsurvives : Survives ((continuousSteps r name).length + 5) faults
        · rw [atomic_of_ok (hends.run_ok hsurvives) rfl]
          refine iff_of_false (fun h => ?_) fun h => h nofun hsurvives
          rw [temporary_setTemporary] at h
          cases h.1
        · exact iff_of_true (atomic_of_throws hfresh hends fun h => absurd h hsurvives)
            fun _ => hsurvives
  · have hends := @ends_createOrOpenFlow_unsupported ι _ name now id s request 0 hsupported
    exact iff_of_true (atomic_of_throws hfresh hends fun _ => rfl)
      ⟨hfree, fun _ _ _ _ _ _ h => absurd h hsupported⟩

theorem atomic_writeFlow_iff (hfresh : s.temporary name = none) :
    Atomic name s (writeFlow name now id request faults s) ↔
      AtomicWhen name s faults id request := by
  cases hflow : s.flows id with
  | none => exact atomic_free_iff hfresh hflow
  | some d => exact atomic_taken_iff hfresh hflow

end Atomic

/-- Whatever the definition, the options, the domain and the faults. -/
theorem atomic_iff (uuid : String → Option ι) (historyDuration : UInt64) (flowDef : String)
    (root : JsonObject) (document : Option JsonValue) (name : ℕ) (now : UInt64)
    (faults : List Bool) (s : State ι) (hfresh : s.temporary name = none) :
    Atomic name s
        (createFlowWriter uuid historyDuration flowDef root document name now faults s) ↔
      ∀ id r, request uuid historyDuration flowDef root document = .ok (id, r) →
        AtomicWhen name s faults id r := by
  unfold createFlowWriter
  cases hrequest : request uuid historyDuration flowDef root document with
  | error error => exact iff_of_true ⟨hfresh, fun _ _ => ⟨rfl, rfl⟩⟩ nofun
  | ok result =>
    obtain ⟨id, r⟩ := result
    rw [atomic_writeFlow_iff hfresh]
    constructor
    · rintro h _ _ heq
      cases heq
      exact h
    · intro h
      exact h id r rfl

/-! ### Traces of a call -/

def hertz50 : JsonObject := [("numerator", .number 50)]

def hertz48000 : JsonObject := [("numerator", .number 48000)]

def emptyDomain : State String where
  flows _ := none
  temporary _ := none
  writers _ := none

/-- The third statement fails. -/
theorem atomic_emptyDomain :
    Atomic 0 emptyDomain (createFlowWriter some 200000000 "data"
      (FlowSizing.dataDocument hertz50) none 0 0 [false, false, true] emptyDomain) := by
  have hfails : ∀ n, ¬ Survives (n + 3) [false, false, true] := by simp [Survives]
  have hfresh : emptyDomain.temporary 0 = none := rfl
  refine (atomic_iff some 200000000 "data" (FlowSizing.dataDocument hertz50) none 0 0
    [false, false, true] emptyDomain hfresh).mpr fun id r _ =>
      ⟨fun _ _ _ h => ?_, fun _ _ _ _ hflow => ?_⟩
  · exact absurd h (hfails _)
  · cases hflow

omit [DecidableEq ι] in
theorem request_eq_ok {uuid : String → Option ι} {historyDuration : UInt64} {flowDef : String}
    {root : JsonObject} {document : Option JsonValue} {parser : FlowParser}
    {options : FlowSizing.FlowOptionsParser} {id : ι} {r : Request}
    (hparse : FlowParser.parse (fun s => (uuid s).isSome) root = .ok parser)
    (hoptions : (FlowSizing.parseOptions document).result = .ok options)
    (hrequest : (FlowSizing.createOrOpenFlowData historyDuration flowDef parser options).result =
      .ok r)
    (hid : definitionId uuid root = some id) :
    request uuid historyDuration flowDef root document = .ok (id, r) := by
  have hparsed : (do
      let parser ← FlowSizing.parse (fun s => (uuid s).isSome) root
      let options ← FlowSizing.parseOptions document
      FlowSizing.createOrOpenFlowData historyDuration flowDef parser options).result = .ok r :=
    MachineArithmetic.Computation.result_bind_eq_ok.mpr ⟨parser, FlowSizing.parse_eq_ok.mpr hparse,
      MachineArithmetic.Computation.result_bind_eq_ok.mpr ⟨options, hoptions, hrequest⟩⟩
  unfold request
  dsimp only
  rw [hparsed, hid]

/-- A complete flow of two channels. -/
def audioDirectory : Directory where
  flowDef := some "audio"
  flow := some {
    info.version := FLOW_DATA_VERSION
    info.config.common.format := .audio
    info.config.continuous := ⟨2, 1024⟩ }
  channels := some 8192

def audioDomain : State String := { emptyDomain with flows := fun _ => some audioDirectory }

/-- 200 milliseconds of data. -/
def dataRequest (sliceLengths : Vector UInt32 4) : DiscreteRequest :=
  FlowSizing.discreteRequest 200000000 "data" (FlowSizing.dataParser hertz50 ⟨50, 1⟩) {} 4096 4096
    sliceLengths

def audioRequest : ContinuousRequest :=
  FlowSizing.continuousRequest 200000000 "audio" (FlowSizing.audioParser hertz48000 2 ⟨48000, 1⟩)
    {} 4 2

theorem request_data :
    request some 200000000 "data" (FlowSizing.dataDocument hertz50) none =
      .ok ("5fbec3b1-1b0f-417d-9059-8b94a47197ed", .discrete (dataRequest #v[1, 0, 0, 0])) := by
  have hdata := (@FlowSizing.discreteFlowData_eq_ok 200000000 "data"
    (FlowSizing.dataParser hertz50 ⟨50, 1⟩) {} (dataRequest #v[1, 0, 0, 0])).mpr
    ⟨by decide, 4096, 4096, #v[1, 0, 0, 0], rfl, rfl, rfl, rfl⟩
  refine request_eq_ok (FlowSizing.parse_dataDocument rfl) rfl ?_ rfl
  unfold FlowSizing.createOrOpenFlowData
  rw [if_pos (FlowSizing.dataParser_discrete _ _)]
  exact MachineArithmetic.Computation.result_bind_eq_ok.mpr ⟨_, hdata, rfl⟩

theorem request_audio :
    request some 200000000 "audio" (FlowSizing.audioDocument hertz48000 2) none =
      .ok ("b3bb5be7-9fe9-4324-a5bb-4c70e1084449", .continuous audioRequest) := by
  have hdata := (@FlowSizing.continuousFlowData_eq_ok 200000000 "audio"
    (FlowSizing.audioParser hertz48000 2 ⟨48000, 1⟩) {} rfl audioRequest).mpr
    ⟨by decide, 4, 2, rfl, rfl, rfl⟩
  refine request_eq_ok (FlowSizing.parse_audioDocument rfl) rfl ?_ rfl
  exact MachineArithmetic.Computation.result_bind_eq_ok.mpr ⟨audioRequest, hdata, rfl⟩

theorem length_discreteSteps (r : DiscreteRequest) (name : ℕ) :
    (discreteSteps r name).length = 12 + r.grainCount.toNat * 6 := by
  have hgrains : ((List.range r.grainCount.toNat).flatMap (grainSteps r)).length =
      r.grainCount.toNat * 6 := by simp [grainSteps]
  rw [discreteSteps, List.length_append, hgrains]
  rfl

/-- An audio flow that is there already is opened, and the temporary directory stays; a
    data flow of ten grains is in its place when its writer cannot be made, and stays. -/
theorem traces_of_a_call :
    ¬ Atomic 0 audioDomain (createFlowWriter some 200000000 "audio"
        (FlowSizing.audioDocument hertz48000 2) none 0 0 [] audioDomain) ∧
      ¬ Atomic 0 emptyDomain (createFlowWriter some 200000000 "data"
        (FlowSizing.dataDocument hertz50) none 0 0 (List.replicate 75 false ++ [true])
        emptyDomain) := by
  constructor
  · unfold createFlowWriter
    rw [request_audio]
    intro h
    have hopens : ∃ f, OpensAsContinuous audioDirectory f := ⟨_, rfl, rfl, rfl, by decide, rfl⟩
    obtain ⟨f, hf⟩ := hopens
    have hwhen := (@atomic_writeFlow_iff String _ 0 0 _ audioDomain _ _ rfl).mp h
    refine hwhen.taken _ audioDirectory f rfl rfl hf rfl ⟨by decide, by decide⟩ ?_
    exact List.not_mem_nil
  · unfold createFlowWriter
    rw [request_data]
    intro h
    have hwhen := (@atomic_writeFlow_iff String _ 0 0 _ emptyDomain _ _ rfl).mp h
    have hattempts : publishAttempts 0 (.discrete (dataRequest #v[1, 0, 0, 0])) = 75 := by
      have hcount : (dataRequest #v[1, 0, 0, 0]).grainCount = 10 := by decide
      rw [publishAttempts, Request.steps, length_discreteSteps, hcount]
      rfl
    have hfree := hwhen.free rfl rfl trivial
    rw [hattempts] at hfree
    exact absurd (hfree (by decide)) (by decide)

end MediaExchange.AtomicCreation
