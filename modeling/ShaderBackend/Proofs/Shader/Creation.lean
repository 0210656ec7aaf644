import ShaderBackend.Shader.Basic

/-! Creation of a module on a device whose calls are written down. The device does not notice that, and
what it is asked for shows in the list of its calls: the specialized words and the stage, or nothing if
there are no such words. -/
namespace ShaderBackend

/-- A call to a device. A creation is written down with its answer. -/
inductive DeviceCall (Request Handle : Type) where
  | create (request : Request) (answer : Except Fault Handle)
  | destroy (handle : Handle)

namespace DeviceCall

variable {Request Handle : Type}

/-- The handle that a call gave out. -/
def created? : DeviceCall Request Handle → Option Handle
  | .create _ (.ok handle) => some handle
  | .create _ (.error _) | .destroy _ => none

/-- The handle that a call gave back. -/
def destroyed? : DeviceCall Request Handle → Option Handle
  | .destroy handle => some handle
  | .create _ _ => none

/-- What a call asked for. -/
def requested? : DeviceCall Request Handle → Option Request
  | .create request _ => some request
  | .destroy _ => none

end DeviceCall

/-- A device with the calls that it has had, in order. -/
structure Traced (State Request Handle : Type) where
  device : State
  calls : List (DeviceCall Request Handle) := []

namespace Traced

variable {State Request Handle : Type}

def created (t : Traced State Request Handle) : List Handle := t.calls.filterMap (·.created?)

def destroyed (t : Traced State Request Handle) : List Handle := t.calls.filterMap (·.destroyed?)

/-- What the device was asked to make. -/
def requested (t : Traced State Request Handle) : List Request := t.calls.filterMap (·.requested?)

/-- The device after one more call. -/
def after (t : Traced State Request Handle) (device : State) (call : DeviceCall Request Handle) :
    Traced State Request Handle := { device, calls := t.calls ++ [call] }

variable (t : Traced State Request Handle) (device : State) (request : Request) (handle : Handle)
  (cause : Fault)

@[simp]
theorem created_made : (t.after device (.create request (.ok handle))).created =
    t.created ++ [handle] := List.filterMap_append

/-- A device that refuses has given out nothing. -/
@[simp]
theorem created_refused : (t.after device (.create request (.error cause))).created = t.created :=
  List.filterMap_append.trans (List.append_nil _)

@[simp]
theorem created_destroy : (t.after device (.destroy handle)).created = t.created :=
  List.filterMap_append.trans (List.append_nil _)

@[simp]
theorem destroyed_create (answer : Except Fault Handle) :
    (t.after device (.create request answer)).destroyed = t.destroyed :=
  List.filterMap_append.trans (List.append_nil _)

@[simp]
theorem requested_create (answer : Except Fault Handle) :
    (t.after device (.create request answer)).requested = t.requested ++ [request] :=
  List.filterMap_append

@[simp]
theorem requested_destroy : (t.after device (.destroy handle)).requested = t.requested :=
  List.filterMap_append.trans (List.append_nil _)

@[simp]
theorem destroyed_destroy : (t.after device (.destroy handle)).destroyed = t.destroyed ++ [handle] :=
  List.filterMap_append

end Traced

section Factory

variable {State Request Handle : Type} (factory : Factory State Request Handle)

/-- The same devices, with their calls written down. -/
def Factory.traced : Factory (Traced State Request Handle) Request Handle where
  create request t :=
    let (answer, device) := factory.create request t.device
    (answer, t.after device (.create request answer))
  destroy handle t := t.after (factory.destroy handle t.device) (.destroy handle)

variable {factory} in
/-- A trace notes what the device is asked for and what it answers, and changes neither. -/
theorem Factory.create_traced {t : Traced State Request Handle} {request : Request} {device : State}
    {answer : Except Fault Handle} (hCreate : factory.create request t.device = (answer, device)) :
    factory.traced.create request t = (answer, t.after device (.create request answer)) := by
  simp only [traced, hCreate]

end Factory

namespace Log

/-- Number of error entries. -/
def errorCount (entries : List Entry) : Nat := entries.countP (·.severity = .error)

namespace Threshold

variable (threshold : Threshold) (source message : String)

/-- A report is one error entry, or nothing where errors do not pass. -/
theorem report_eq : threshold.report source message =
    if threshold.enabled .error then
      [{ severity := .error, source, message, file := some source, line := some 0 }]
    else [] := rfl

/-- A report is one entry, unless errors are not logged. -/
theorem report_once : if threshold.enabled .error then
      ∃ entry, threshold.report source message = [entry] ∧ entry.severity = .error
    else threshold.report source message = [] := by
  rw [report_eq]
  split
  · exact ⟨_, rfl, rfl⟩
  · rfl

/-- Notes below the severity of errors are not counted as errors. -/
theorem errorCount_note {severity : Severity} (hSeverity : severity ≠ .error) :
    errorCount (threshold.note severity source message) = 0 := by
  rw [note, pass]
  split
  · exact List.countP_eq_zero.2 (by simpa using hSeverity)
  · rfl

end Threshold

end Log

namespace Shader

variable {State Handle : Type} {factory : Factory State ModuleRequest Handle} {s : Shader}
  {m : DescriptorMapping} {options : ModuleOptions} {d : Traced State ModuleRequest Handle}

/-- The handle of a module, if there is one. -/
def handleOf? {ε : Type} : Except ε (ShaderModule Handle) → Option Handle
  | .ok made => some made.handle
  | .error _ => none

/-- What a device is asked for, if the template specializes. -/
def request? (s : Shader) (m : DescriptorMapping) (options : ModuleOptions) : Option ModuleRequest :=
  match s.specialize m options with
  | .ok code => some ⟨s.stage, code⟩
  | .error _ => none

/-- Devices whose calls to make and to destroy modules are written down. -/
abbrev ModuleTrace (State Handle : Type) := Traced State ModuleRequest Handle

/-- The paths through a creation. -/
inductive Creates (factory : Factory State ModuleRequest Handle) (s : Shader) (m : DescriptorMapping)
    (options : ModuleOptions) (d : ModuleTrace State Handle) :
    Creation (ModuleTrace State Handle) Handle → Prop where
  /-- The template does not specialize, and the caller is told why. -/
  | faulty {e : Spirv.PatchError} {cause : Fault} (message : String)
      (hSpecialize : s.specialize m options = .error e) (hFault : e.failure = .fault cause) :
      Creates factory s m options d ⟨.error (.fault cause), s.threshold.report logSource message, d⟩
  /-- The specialization leaves the bounds of the template. -/
  | aborted {e : Spirv.PatchError} (hSpecialize : s.specialize m options = .error e)
      (hAbort : e.failure = .abort) : Creates factory s m options d ⟨.error .abort, [], d⟩
  | refused {code : Spirv.Code} {cause : Fault} {device : State} (message : String)
      (hSpecialize : s.specialize m options = .ok code)
      (hRefused : factory.create ⟨s.stage, code⟩ d.device = (.error cause, device)) :
      Creates factory s m options d
        ⟨.error (.fault cause), s.threshold.report logSource message,
          d.after device (.create ⟨s.stage, code⟩ (.error cause))⟩
  | made {code : Spirv.Code} {handle : Handle} {device : State} (message : String)
      (hSpecialize : s.specialize m options = .ok code)
      (hMade : factory.create ⟨s.stage, code⟩ d.device = (.ok handle, device)) :
      Creates factory s m options d
        ⟨.ok ⟨s.stage, handle⟩, s.threshold.note .debug logSource message,
          d.after device (.create ⟨s.stage, code⟩ (.ok handle))⟩

variable (factory s m options d)

/-- Every creation takes one of these paths. -/
theorem createModule_creates :
    Creates factory s m options d (s.createModule factory.traced m options d) := by
  rw [createModule]
  cases hSpecialize : s.specialize m options with
  | error e =>
      simp only
      cases hFailure : e.failure with
      | fault cause => exact .faulty _ hSpecialize hFailure
      | abort => exact .aborted hSpecialize hFailure
  | ok code =>
      simp only
      rcases hCreate : factory.create ⟨s.stage, code⟩ d.device with ⟨cause | handle, device⟩
      · rw [Factory.create_traced hCreate]
        exact .refused _ hSpecialize hCreate
      · rw [Factory.create_traced hCreate]
        exact .made _ hSpecialize hCreate

/-- A creation takes the same course whether or not the calls are written down. -/
theorem createModule_behind :
    (fun creation => ⟨creation.result, creation.entries, creation.device.device⟩)
      (s.createModule factory.traced m options d) = s.createModule factory m options d.device := by
  rw [createModule, createModule]
  cases hSpecialize : s.specialize m options with
  | error e => rfl
  | ok code =>
      simp only
      rcases hCreate : factory.create ⟨s.stage, code⟩ d.device with ⟨cause | handle, device⟩
      · rw [Factory.create_traced hCreate]
        rfl
      · rw [Factory.create_traced hCreate]
        rfl

/-- What a creation does, whichever way it ends. -/
structure Accounted (factory : Factory State ModuleRequest Handle) (s : Shader) (m : DescriptorMapping)
    (options : ModuleOptions) (d : ModuleTrace State Handle)
    (creation : Creation (ModuleTrace State Handle) Handle) : Prop where
  /-- A module comes of it exactly if the template specializes and the device accepts. -/
  succeeds : ∀ made, creation.result = .ok made ↔ ∃ code, s.specialize m options = .ok code ∧
    (factory.create ⟨s.stage, code⟩ d.device).1 = .ok made.handle ∧ made.stage = s.stage
  /-- The device is asked once, for a module of the stage from the specialized words. -/
  asked : ∀ code, s.specialize m options = .ok code → creation.device.calls =
    d.calls ++ [.create ⟨s.stage, code⟩ (factory.create ⟨s.stage, code⟩ d.device).1]
  /-- The device is not asked if the template does not specialize. -/
  unasked : ∀ e, s.specialize m options = .error e →
    creation.result = .error e.failure ∧ creation.device = d
  /-- The cause that is told is that of the specialization or of the device. -/
  cause : ∀ code, s.specialize m options = .ok code → ∀ cause,
    (factory.create ⟨s.stage, code⟩ d.device).1 = .error cause →
      creation.result = .error (.fault cause)
  /-- A creation that fails gives no handle out. -/
  failed : ∀ failure, creation.result = .error failure → creation.device.created = d.created
  /-- No creation gives a handle back. -/
  destroyed : creation.device.destroyed = d.destroyed
  /-- A failure that the caller is told of is logged once, if errors are. -/
  reported : ∀ cause, creation.result = .error (.fault cause) →
    if s.threshold.enabled .error then
      ∃ entry, creation.entries = [entry] ∧ entry.severity = .error
    else creation.entries = []
  /-- Nothing else is logged as an error. -/
  quiet : (∀ cause, creation.result ≠ .error (.fault cause)) → Log.errorCount creation.entries = 0

variable {factory s m options d}

/-- A device is asked at most once. -/
theorem Creates.requested {creation : Creation (ModuleTrace State Handle) Handle}
    (h : Creates factory s m options d creation) :
    creation.device.requested = d.requested ++ (request? s m options).toList := by
  cases h with
  | faulty _ hSpecialize | aborted hSpecialize => simp [request?, hSpecialize]
  | refused _ hSpecialize | made _ hSpecialize => simp [request?, hSpecialize]

/-- On every path the device is asked at most once, with the specialized words, and every fault is
logged once. -/
theorem Creates.accounted {creation : Creation (ModuleTrace State Handle) Handle}
    (h : Creates factory s m options d creation) : Accounted factory s m options d creation := by
  cases h with
  | faulty message hSpecialize hFault =>
      constructor
      case succeeds => simp [hSpecialize]
      case asked => simp [hSpecialize]
      case unasked => simp [hSpecialize, ← hFault]
      case cause => simp [hSpecialize]
      case failed => exact fun _ _ => rfl
      case destroyed => rfl
      case reported => exact fun _ _ => Log.Threshold.report_once _ _ _
      case quiet => exact fun hQuiet => absurd rfl (hQuiet _)
  | aborted hSpecialize hAbort =>
      constructor
      case succeeds => simp [hSpecialize]
      case asked => simp [hSpecialize]
      case unasked => simp [hSpecialize, ← hAbort]
      case cause => simp [hSpecialize]
      case failed => exact fun _ _ => rfl
      case destroyed => rfl
      case reported => exact nofun
      case quiet => exact fun _ => rfl
  | refused message hSpecialize hRefused =>
      constructor
      case succeeds => simp [hSpecialize, hRefused]
      case asked => simp [hSpecialize, hRefused, Traced.after]
      case unasked => simp [hSpecialize]
      case cause => simp [hSpecialize, hRefused]
      case failed => simp
      case destroyed => simp
      case reported => exact fun _ _ => Log.Threshold.report_once _ _ _
      case quiet => exact fun hQuiet => absurd rfl (hQuiet _)
  | made message hSpecialize hMade =>
      constructor
      case succeeds =>
        rintro ⟨stage, handle⟩
        simp [hSpecialize, hMade, and_comm, eq_comm]
      case asked => simp [hSpecialize, hMade, Traced.after]
      case unasked => simp [hSpecialize]
      case cause => simp [hSpecialize, hMade]
      case failed => exact nofun
      case destroyed => simp
      case reported => exact nofun
      case quiet => exact fun _ => Log.Threshold.errorCount_note _ _ _ nofun

end Shader

end ShaderBackend
