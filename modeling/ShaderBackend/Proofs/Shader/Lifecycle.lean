import Mathlib.Data.List.Nodup
import ShaderBackend.Proofs.Runs
import ShaderBackend.Proofs.Shader.Creation
import ShaderBackend.Proofs.Shader.Registration

/-! Shaders, mappings and the modules made from them, call by call. The device may refuse any request,
and it may change between the calls. Modules are dropped in any order. The handles that were given back
are those of the dropped modules, and the shaders are what they were at the start. -/
namespace ShaderBackend.Shader

variable {State Handle : Type}

/-- What came of a creation, and the shader that it was for. -/
structure CreationAnswer (Handle : Type) where
  shader : Nat
  result : Except Failure (ShaderModule Handle)

namespace CreationAnswer

def handle? (a : CreationAnswer Handle) : Option Handle := handleOf? a.result

/-- Whether the caller was told why there is no module. -/
def isFault (a : CreationAnswer Handle) : Bool :=
  match a.result with
  | .error (.fault _) => true
  | .ok _ | .error .abort => false

end CreationAnswer

/-- A creation leaves an error entry exactly if it fails with a cause and errors are logged. -/
theorem Accounted.errorCount_eq {factory : Factory State ModuleRequest Handle} {s : Shader}
    {m : DescriptorMapping} {options : ModuleOptions} {d : ModuleTrace State Handle}
    {creation : Creation (ModuleTrace State Handle) Handle}
    (h : Accounted factory s m options d creation) (shader : Nat) :
    Log.errorCount creation.entries =
      if CreationAnswer.isFault ⟨shader, creation.result⟩ && s.threshold.enabled .error then 1
      else 0 := by
  rw [CreationAnswer.isFault]
  cases hResult : creation.result with
  | ok made => exact h.quiet (by simp [hResult])
  | error failure =>
      cases failure with
      | abort => exact h.quiet (by simp [hResult])
      | fault cause =>
          have hReported := h.reported cause hResult
          cases hEnabled : s.threshold.enabled .error with
          | false =>
              rw [hEnabled] at hReported
              rw [show creation.entries = [] from hReported]
              rfl
          | true =>
              rw [hEnabled] at hReported
              obtain ⟨entry, hEntries, hSeverity⟩ := hReported
              simp [hEntries, Log.errorCount, hSeverity]

/-- Shaders and mappings that modules are made from, the device, and what came of it so far. Modules
are known by the number of their creation. -/
structure Workbench (State Handle : Type) where
  shaders : List Shader
  mappings : List DescriptorMapping
  device : ModuleTrace State Handle
  answers : List (CreationAnswer Handle) := []
  /-- The modules that were dropped, in order. -/
  dropped : List Nat := []
  /-- What was logged, and on the log of which shader. -/
  log : List (Nat × Log.Entry) := []

namespace Workbench

/-- What happens next. -/
inductive Event (State : Type) where
  /-- A shader registers its slots with a mapping. -/
  | declare (shader mapping : Nat)
  | create (shader mapping : Nat) (options : ModuleOptions)
  /-- The module of a creation is dropped. -/
  | drop (creation : Nat)
  /-- The device changes on its own account, or by the doing of others. -/
  | outside (device : State)

def initial (shaders : List Shader) (mappings : List DescriptorMapping) (device : State) :
    Workbench State Handle := { shaders, mappings, device := { device } }

/-- The handle that a creation gave out. -/
def handle? (b : Workbench State Handle) (creation : Nat) : Option Handle :=
  (b.answers[creation]?).bind CreationAnswer.handle?

/-- The handle of a module that was not dropped. -/
def held? (b : Workbench State Handle) (creation : Nat) : Option Handle :=
  if creation ∈ b.dropped then none else b.handle? creation

/-- A module that was not dropped. -/
def heldModule? (b : Workbench State Handle) (creation : Nat) : Option (ShaderModule Handle) :=
  if creation ∈ b.dropped then none else (b.answers[creation]?).bind (·.result.toOption)

/-- The handles of all modules that were not dropped. -/
def held (b : Workbench State Handle) : List Handle :=
  ((List.range b.answers.length).filter (· ∉ b.dropped)).filterMap b.handle?

/-- The workbench after a creation. -/
def withCreation (b : Workbench State Handle) (shader : Nat)
    (creation : Creation (ModuleTrace State Handle) Handle) : Workbench State Handle :=
  { b with
    device := creation.device
    answers := b.answers ++ [⟨shader, creation.result⟩]
    log := b.log ++ creation.entries.map (Prod.mk shader) }

/-- The workbench after a module was dropped. -/
def withDrop (factory : Factory State ModuleRequest Handle) (b : Workbench State Handle)
    (creation : Nat) (made : ShaderModule Handle) : Workbench State Handle :=
  { b with device := made.drop factory.traced b.device, dropped := b.dropped ++ [creation] }

/-- What an event leads to, `none` where it cannot happen: there is no such shader or mapping, or no
such module any more. -/
def step? (factory : Factory State ModuleRequest Handle) (b : Workbench State Handle) :
    Event State → Option (Workbench State Handle)
  | .declare shader mapping =>
    (b.shaders[shader]?).bind fun s => (b.mappings[mapping]?).map fun m =>
      { b with mappings := b.mappings.set mapping (s.declareSlots m) }
  | .create shader mapping options =>
    (b.shaders[shader]?).bind fun s => (b.mappings[mapping]?).map fun m =>
      b.withCreation shader (s.createModule factory.traced m options b.device)
  | .drop creation => (b.heldModule? creation).map (b.withDrop factory creation)
  | .outside device => some { b with device := { b.device with device } }

/-- What a run of events leads to, `none` if one of them cannot happen. -/
def run? (factory : Factory State ModuleRequest Handle) (b : Workbench State Handle)
    (events : List (Event State)) : Option (Workbench State Handle) :=
  events.foldlM (step? factory) b

variable {factory : Factory State ModuleRequest Handle} {b c : Workbench State Handle}

theorem held?_eq (b : Workbench State Handle) (creation : Nat) :
    b.held? creation = (b.heldModule? creation).map (·.handle) := by
  rw [held?, heldModule?]
  split
  · rfl
  · rw [handle?]
    cases b.answers[creation]? with
    | none => rfl
    | some answer =>
        obtain ⟨-, failure | made⟩ := answer
        · rfl
        · rfl

/-- The paths through the events. -/
inductive Step (factory : Factory State ModuleRequest Handle) (b : Workbench State Handle) :
    Event State → Workbench State Handle → Prop where
  | declare {shader mapping : Nat} {s : Shader} {m : DescriptorMapping}
      (hShader : b.shaders[shader]? = some s) (hMapping : b.mappings[mapping]? = some m) :
      Step factory b (.declare shader mapping)
        { b with mappings := b.mappings.set mapping (s.declareSlots m) }
  | create {shader mapping : Nat} {options : ModuleOptions} {s : Shader} {m : DescriptorMapping}
      {creation : Creation (ModuleTrace State Handle) Handle} (hShader : b.shaders[shader]? = some s)
      (hMapping : b.mappings[mapping]? = some m)
      (hCreates : Creates factory s m options b.device creation) :
      Step factory b (.create shader mapping options) (b.withCreation shader creation)
  | drop {creation : Nat} {made : ShaderModule Handle}
      (hHeld : b.heldModule? creation = some made) :
      Step factory b (.drop creation) (b.withDrop factory creation made)
  | outside (device : State) :
      Step factory b (.outside device) { b with device := { b.device with device } }

/-- The function makes the steps of the relation only. -/
theorem step_of_step? {event : Event State} (h : b.step? factory event = some c) :
    Step factory b event c := by
  cases event with
  | declare shader mapping =>
      obtain ⟨s, hShader, h⟩ := Option.bind_eq_some_iff.1 h
      obtain ⟨m, hMapping, rfl⟩ := Option.map_eq_some_iff.1 h
      exact .declare hShader hMapping
  | create shader mapping options =>
      obtain ⟨s, hShader, h⟩ := Option.bind_eq_some_iff.1 h
      obtain ⟨m, hMapping, rfl⟩ := Option.map_eq_some_iff.1 h
      exact .create hShader hMapping (createModule_creates ..)
  | drop creation =>
      obtain ⟨made, hHeld, rfl⟩ := Option.map_eq_some_iff.1 h
      exact .drop hHeld
  | outside device =>
      cases h
      exact .outside device

/-- Number of error entries on the log of a shader. -/
def errorCount (b : Workbench State Handle) (shader : Nat) : Nat :=
  b.log.countP fun (other, entry) => other = shader ∧ entry.severity = .error

/-- Number of the creations for a shader that failed with a cause. -/
def faultCount (b : Workbench State Handle) (shader : Nat) : Nat :=
  b.answers.countP fun a => a.shader = shader ∧ a.isFault

/-- What is written down agrees with what the device was asked for. -/
structure Books (library : List Shader) (b : Workbench State Handle) : Prop where
  shaders : b.shaders = library
  created : b.device.created = b.answers.filterMap CreationAnswer.handle?
  destroyed : b.device.destroyed = b.dropped.filterMap b.handle?
  once : b.dropped.Nodup
  made : ∀ creation ∈ b.dropped, (b.handle? creation).isSome = true
  errors : ∀ (shader : Nat) s, library[shader]? = some s →
    b.errorCount shader = if s.threshold.enabled .error then b.faultCount shader else 0

theorem lt_of_handle? {creation : Nat} (h : (b.handle? creation).isSome = true) :
    creation < b.answers.length := by
  by_contra hOut
  rw [handle?, List.getElem?_eq_none (Nat.not_lt.1 hOut)] at h
  cases h

/-- The handles by the number of their creation are all handles that creations gave. -/
theorem filterMap_handle? : (List.range b.answers.length).filterMap b.handle? =
    b.answers.filterMap CreationAnswer.handle? := by
  have hAll : (List.range b.answers.length).map (fun creation => b.answers[creation]?) =
      b.answers.map some := by
    refine List.ext_getElem (by simp) fun creation _ hInside => ?_
    simp [List.getElem?_eq_getElem (by simpa using hInside)]
  have hEach := congrArg (List.filterMap (·.bind CreationAnswer.handle?)) hAll
  rw [List.filterMap_map, List.filterMap_map] at hEach
  exact hEach

/-- The handles that creations gave out were given back or are held. -/
theorem Books.balance {library : List Shader} (h : b.Books library) :
    b.device.created.Perm (b.device.destroyed ++ b.held) := by
  have hDropped : b.dropped.Perm ((List.range b.answers.length).filter (· ∈ b.dropped)) := by
    refine (List.perm_ext_iff_of_nodup h.once (List.nodup_range.filter _)).2 fun creation => ?_
    simp only [List.mem_filter, List.mem_range, decide_eq_true_eq]
    exact (and_iff_right_of_imp fun hIn => lt_of_handle? (h.made creation hIn)).symm
  have hSplit := List.filter_append_perm (· ∈ b.dropped) (List.range b.answers.length)
  rw [h.created, h.destroyed, ← filterMap_handle?, held, ← List.filterMap_append]
  refine (hSplit.symm.filterMap _).trans (List.Perm.filterMap _ ?_)
  simp only [decide_not]
  exact hDropped.symm.append_right _

section Creation

variable {shader : Nat} {creation : Creation (ModuleTrace State Handle) Handle}

/-- A new creation leaves the modules of the earlier ones alone. -/
theorem handle?_withCreation {number : Nat} (hInside : number < b.answers.length) :
    (b.withCreation shader creation).handle? number = b.handle? number := by
  rw [handle?, withCreation, List.getElem?_append_left hInside, handle?]

/-- It is its own shader whose errors it logs. -/
theorem errorCount_withCreation (other : Nat) :
    (b.withCreation shader creation).errorCount other =
      b.errorCount other + if shader = other then Log.errorCount creation.entries else 0 := by
  rw [errorCount, withCreation, List.countP_append, List.countP_map, errorCount, Log.errorCount]
  congr 1
  split
  · rename_i hSame
    simp [hSame, Function.comp_def]
  · rename_i hOther
    simp [hOther, Function.comp_def]

theorem faultCount_withCreation (other : Nat) :
    (b.withCreation shader creation).faultCount other =
      b.faultCount other +
        if shader = other ∧ CreationAnswer.isFault ⟨shader, creation.result⟩ then 1 else 0 := by
  rw [faultCount, withCreation, List.countP_append, List.countP_singleton, faultCount]
  simp

end Creation

namespace Books

variable {library : List Shader}

/-- An empty bench has clean books. -/
theorem initial (library : List Shader) (mappings : List DescriptorMapping) (device : State) :
    (Workbench.initial library mappings device : Workbench State Handle).Books library where
  shaders := rfl
  created := rfl
  destroyed := rfl
  once := List.nodup_nil
  made _ hIn := absurd hIn List.not_mem_nil
  errors _ _ _ := by
    split <;> rfl

/-- A creation for a shader adds its handle, if it has one, and its error, if it has one. -/
theorem create {shader : Nat} {s : Shader} {m : DescriptorMapping} {options : ModuleOptions}
    {creation : Creation (ModuleTrace State Handle) Handle} (h : b.Books library)
    (hShader : b.shaders[shader]? = some s)
    (hCreates : Creates factory s m options b.device creation) :
    (b.withCreation shader creation).Books library := by
  have hAccounted := hCreates.accounted
  constructor
  case shaders => exact h.shaders
  case created =>
    rw [withCreation, List.filterMap_append, ← h.created]
    cases hCreates <;> simp [CreationAnswer.handle?, handleOf?]
  case destroyed =>
    refine (hAccounted.destroyed.trans h.destroyed).trans (List.filterMap_congr fun number hIn => ?_)
    exact (handle?_withCreation (lt_of_handle? (h.made number hIn))).symm
  case once => exact h.once
  case made =>
    intro number hIn
    rw [handle?_withCreation (lt_of_handle? (h.made number hIn))]
    exact h.made number hIn
  case errors =>
    intro other t hOther
    rw [errorCount_withCreation, faultCount_withCreation, h.errors other t hOther,
      hAccounted.errorCount_eq shader]
    by_cases hSame : shader = other
    · subst hSame
      rw [h.shaders, hOther] at hShader
      cases hShader
      cases s.threshold.enabled .error <;> simp
    · simp [hSame]

/-- A drop gives back the handle of a module that was held until then. -/
theorem drop {creation : Nat} {made : ShaderModule Handle} (h : b.Books library)
    (hModule : b.heldModule? creation = some made) :
    (b.withDrop factory creation made).Books library := by
  have hHeld : b.held? creation = some made.handle := by rw [held?_eq, hModule, Option.map_some]
  rw [held?] at hHeld
  split at hHeld
  · cases hHeld
  · rename_i hNew
    constructor
    case shaders => exact h.shaders
    case created => exact Traced.created_destroy .. |>.trans h.created
    case destroyed =>
      show (Traced.after ..).destroyed = (b.dropped ++ [creation]).filterMap b.handle?
      rw [Traced.destroyed_destroy, h.destroyed, List.filterMap_append,
        List.filterMap_cons_some hHeld, List.filterMap_nil]
    case once =>
      exact List.nodup_append.2 ⟨h.once, List.nodup_singleton _, by
        rintro number hIn _ hLast rfl
        exact hNew (List.mem_singleton.1 hLast ▸ hIn)⟩
    case made =>
      intro number hIn
      obtain hBefore | hLast := List.mem_append.1 hIn
      · exact h.made number hBefore
      · rw [List.mem_singleton.1 hLast]
        exact Option.isSome_of_eq_some hHeld
    case errors => exact h.errors

/-- Creations, drops and changes from outside keep them clean. -/
theorem step {event : Event State} (h : b.Books library) (hStep : Step factory b event c) :
    c.Books library := by
  cases hStep with
  | declare => exact { h with }
  | create hShader _ hCreates => exact h.create hShader hCreates
  | drop hHeld => exact h.drop hHeld
  | outside device => exact { h with }

theorem of_run? {mappings : List DescriptorMapping} {device : State} {events : List (Event State)}
    (run : (Workbench.initial library mappings device).run? factory events = some b) :
    b.Books library :=
  foldlM_invariant run (.initial library mappings device) fun h hBooks =>
    hBooks.step (step_of_step? h)

end Books

/-- A creation that fails leaves nothing to hold. -/
theorem held_withCreation {shader : Nat} {creation : Creation (ModuleTrace State Handle) Handle}
    {failure : Failure} (hFailed : creation.result = .error failure) :
    (b.withCreation shader creation).held = b.held := by
  have hNone : (b.withCreation shader creation).handle? b.answers.length = none := by
    rw [handle?, withCreation, List.getElem?_concat_length, Option.bind_some,
      CreationAnswer.handle?, hFailed, handleOf?]
  have hLast : ([b.answers.length].filter (· ∉ b.dropped)).filterMap
      (b.withCreation shader creation).handle? = [] := by
    refine List.filterMap_eq_nil_iff.2 fun number hIn => ?_
    rw [List.mem_singleton.1 (List.mem_filter.1 hIn).1, hNone]
  have hLength : (b.withCreation shader creation).answers.length = b.answers.length + 1 :=
    List.length_append
  rw [held, hLength, List.range_succ, List.filter_append, List.filterMap_append]
  refine (congrArg _ hLast).trans ((List.append_nil _).trans (List.filterMap_congr ?_))
  intro number hIn
  exact handle?_withCreation (List.mem_range.1 (List.mem_filter.1 hIn).1)

/-- What holds of the modules of a workbench, here and in whatever step comes next. -/
structure Lifecycle (factory : Factory State ModuleRequest Handle) (library : List Shader)
    (b : Workbench State Handle) : Prop where
  /-- No shader is changed, neither its template nor what reading it has found. -/
  shaders : b.shaders = library
  /-- A module can be made for every shader and mapping, and it is accounted for how that ends. -/
  create : ∀ (shader mapping : Nat) options s m, library[shader]? = some s →
    b.mappings[mapping]? = some m →
      ∃ creation, b.step? factory (.create shader mapping options) =
          some (b.withCreation shader creation) ∧
        Accounted factory s m options b.device creation
  /-- A creation that fails leaves nothing to hold. -/
  failed : ∀ shader creation failure, creation.result = .error failure →
    (b.withCreation shader creation).held = b.held
  /-- A module that is held can be dropped. Its handle is given back then, and no other. -/
  drop : ∀ creation handle, b.held? creation = some handle →
    ∃ c, b.step? factory (.drop creation) = some c ∧ c.held? creation = none ∧
      c.device.calls = b.device.calls ++ [.destroy handle]
  /-- Nothing but a drop gives a handle back. -/
  spared : ∀ event c, b.step? factory event = some c → (∀ creation, event ≠ .drop creation) →
    c.device.destroyed = b.device.destroyed
  /-- The handles given out are those of the creations that succeeded. -/
  created : b.device.created = b.answers.filterMap CreationAnswer.handle?
  /-- The handles given back are those of the dropped modules, in order, and none is dropped twice. -/
  destroyed : b.device.destroyed = b.dropped.filterMap b.handle? ∧ b.dropped.Nodup
  /-- What is held is what was given out and not given back. -/
  balance : b.device.created.Perm (b.device.destroyed ++ b.held)
  /-- Each failure with a cause was logged once as an error, if the log of the shader takes errors. -/
  errors : ∀ (shader : Nat) s, library[shader]? = some s →
    b.errorCount shader = if s.threshold.enabled .error then b.faultCount shader else 0

/-- Modules are accounted for in every run: each creation as it ends, and each handle until it is
given back by the drop of its module. -/
theorem lifecycle {library : List Shader} {mappings : List DescriptorMapping} {device : State}
    {events : List (Event State)}
    (run : (initial library mappings device).run? factory events = some b) :
    b.Lifecycle factory library := by
  have hBooks := Books.of_run? run
  constructor
  case shaders => exact hBooks.shaders
  case create =>
    intro shader mapping options s m hShader hMapping
    refine ⟨_, ?_, (createModule_creates factory s m options b.device).accounted⟩
    rw [step?, hBooks.shaders, hShader, Option.bind_some, hMapping, Option.map_some]
  case failed => exact fun _ _ _ => held_withCreation
  case drop =>
    intro creation handle hHeld
    rw [held?_eq] at hHeld
    obtain ⟨made, hModule, rfl⟩ := Option.map_eq_some_iff.1 hHeld
    refine ⟨b.withDrop factory creation made, ?_, ?_, rfl⟩
    · rw [step?, hModule, Option.map_some]
    · exact if_pos (List.mem_append_right _ (List.mem_singleton_self _))
  case spared =>
    intro event c hStep hOther
    cases step_of_step? hStep with
    | declare => rfl
    | create _ _ hCreates => exact hCreates.accounted.destroyed
    | drop => exact absurd rfl (hOther _)
    | outside => rfl
  case created => exact hBooks.created
  case destroyed => exact ⟨hBooks.destroyed, hBooks.once⟩
  case balance => exact hBooks.balance
  case errors => exact hBooks.errors

/-- A shader whose slots have to be registered, and which logs what goes wrong. -/
def loggedShader : Shader := { blendShader with threshold := some .info }

/-- A mapping without the slots of the shader. -/
def foreignMapping : DescriptorMapping :=
  .ofCalls [.slot .vertex { slot := 9, descriptorType := .uniformBuffer }]

/-- The slots are registered after one creation has failed, and the device refuses the third. -/
def secondSucceeds : List (Event (LedgerDevice ModuleRequest)) :=
  [.create 0 0 {}, .declare 0 0, .create 0 0 {}, .outside { created := 1, refusal := some .outOfMemory },
    .create 0 0 {}, .drop 1]

/-- One module is made and given back, and the two creations that fail log an error each. -/
theorem lifecycle_secondSucceeds :
    ∃ b, (initial [loggedShader] [foreignMapping] {}).run? (LedgerDevice.factory ModuleRequest)
        secondSucceeds = some b ∧
      b.device.created = [1] ∧ b.device.destroyed = [1] ∧ b.errorCount 0 = 2 := by
  have hFacts : ((initial [loggedShader] [foreignMapping] {}).run?
      (LedgerDevice.factory ModuleRequest) secondSucceeds).map (fun b =>
        (b.answers.filterMap CreationAnswer.handle?, b.dropped.filterMap b.handle?, b.faultCount 0)) =
      some ([1], [1], 2) := by
    decide +kernel
  obtain ⟨b, hRun, hSame⟩ := Option.map_eq_some_iff.1 hFacts
  simp only [Prod.mk.injEq] at hSame
  obtain ⟨hCreated, hDropped, hFaults⟩ := hSame
  have hModules := lifecycle hRun
  refine ⟨b, hRun, hModules.created.trans hCreated, hModules.destroyed.1.trans hDropped, ?_⟩
  rw [hModules.errors 0 loggedShader rfl, if_pos (by decide), hFaults]

end Workbench

end ShaderBackend.Shader
