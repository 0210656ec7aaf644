import ShaderBackend.Proofs.Render.Ledger

/-! What a pool is searched by. No format has two objects and no object has two passes for the same
operations, and whatever a call was answered in the past agrees with what the objects hold now. -/
namespace ShaderBackend.Render

variable {State Handle : Type} {factory : Factory State PassPlan Handle} {threshold : Log.Threshold}

theorem Pass.mem_handles {p : Pass Handle} {ops : PassOps} {handle : Handle}
    (hEntry : ⟨ops, handle⟩ ∈ p.instances) : handle ∈ p.handles :=
  List.mem_cons_of_mem _ (List.mem_map.2 ⟨_, hEntry, rfl⟩)

/-- What an object finds for some ops is one of its instances for these ops. -/
theorem Pass.mem_instances_of_known? {p : Pass Handle} {ops : PassOps} {handle : Handle}
    (hKnown : p.known? ops = some handle) : ⟨ops, handle⟩ ∈ p.instances := by
  obtain ⟨entry, hFound, rfl⟩ := Option.map_eq_some_iff.1 hKnown
  have hOps : entry.ops = ops := by simpa using List.find?_some hFound
  rw [← hOps]
  exact List.mem_of_find?_eq_some hFound

/-- An object that finds nothing for some ops has no instance for them. -/
theorem Pass.not_mem_of_known?_none {p : Pass Handle} {ops : PassOps}
    (hNew : p.known? ops = none) : ops ∉ p.instances.map (·.ops) := by
  intro hIn
  obtain ⟨entry, hEntry, rfl⟩ := List.mem_map.1 hIn
  have hNone := List.find?_eq_none.1 (Option.map_eq_none_iff.1 hNew) entry hEntry
  simp at hNone

namespace PassPool

variable {pool next : PassPool Handle} {format : PassFormat} {number : Nat}

/-- The object that the pool holds for a format. -/
def object? (pool : PassPool Handle) (format : PassFormat) : Option (Pass Handle) :=
  (pool.known? format).bind (pool.objects[·]?)

/-- The object that is found for a format is one for this format. -/
theorem exists_of_known? (hKnown : pool.known? format = some number) :
    ∃ object, pool.objects[number]? = some object ∧ object.format = format := by
  have hFormat := List.find?_some hKnown
  cases hObject : pool.objects[number]? with
  | none => simp [hObject] at hFormat
  | some object => exact ⟨object, rfl, by simpa [hObject, Pass.hasFormat] using hFormat⟩

/-- As long as the pool lives it knows all objects, so a format for which it finds none has none. -/
theorem format_ne_of_known?_none (hAll : pool.cached = some pool.numbers)
    (hNew : pool.known? format = none) {object : Pass Handle} (hObject : object ∈ pool.objects) :
    object.format ≠ format := by
  intro hSame
  obtain ⟨number, hAt⟩ := List.mem_iff_getElem?.1 hObject
  have hInside := (List.getElem?_eq_some_iff.1 hAt).1
  have hIn : number ∈ pool.owned := by
    rw [owned, hAll]
    exact List.mem_range.2 hInside
  have hNone := List.find?_eq_none.1 hNew number hIn
  simp [hAt, Pass.hasFormat, hSame] at hNone

/-- No format has two objects, and no object has two passes for the same operations. -/
structure Keyed (pool : PassPool Handle) : Prop where
  formats : (pool.objects.map (·.format)).Nodup
  keys : ∀ object ∈ pool.objects, (object.instances.map (·.ops)).Nodup

/-- No two objects are made for one format. -/
theorem Keyed.number_unique (h : pool.Keyed) {m n : Nat} {a b : Pass Handle}
    (hFirst : pool.objects[m]? = some a) (hSecond : pool.objects[n]? = some b)
    (hSame : a.format = b.format) : m = n := by
  have hInside : m < (pool.objects.map (·.format)).length := by
    simpa using (List.getElem?_eq_some_iff.1 hFirst).1
  refine (List.getElem?_inj hInside h.formats).1 ?_
  rw [List.getElem?_map, List.getElem?_map, hFirst, hSecond, Option.map_some, Option.map_some, hSame]

/-- A new object keeps this up, since it comes for a format without one and starts with no
instances. -/
theorem Keyed.withObject (h : pool.Keyed) {cached : List Nat} {object : Pass Handle}
    (hNew : ∀ old ∈ pool.objects, old.format ≠ object.format) (hBare : object.instances = []) :
    ((pool.withObject cached object).hold number).Keyed where
  formats := by
    show ((pool.objects ++ [object]).map (·.format)).Nodup
    rw [List.map_append, List.map_singleton]
    refine h.formats.append (List.nodup_singleton _) (List.disjoint_singleton.2 fun hIn => ?_)
    obtain ⟨old, hOld, hSame⟩ := List.mem_map.1 hIn
    exact hNew old hOld hSame
  keys := fun other hOther => by
    obtain hOld | hMade := List.mem_append.1 hOther
    · exact h.keys other hOld
    · rw [List.mem_singleton.1 hMade, hBare]
      exact List.nodup_nil

/-- So does a new instance, which is made only for ops that its object does not know. -/
theorem Keyed.withInstance (h : pool.Keyed) {object : Pass Handle} {made : Instance Handle}
    (hObject : pool.objects[number]? = some object) (hNew : object.known? made.ops = none) :
    (pool.withInstance number object made).Keyed where
  formats := by
    have hSame : (pool.withInstance number object made).objects.map (·.format) =
        pool.objects.map (·.format) := by
      obtain ⟨hInside, rfl⟩ := List.getElem?_eq_some_iff.1 hObject
      rw [PassPool.withInstance, List.map_set]
      refine List.ext_getElem? fun other => ?_
      rw [List.getElem?_set]
      split
      · rename_i hAt
        simp [← hAt, hInside]
      · rfl
    rw [hSame]
    exact h.formats
  keys := fun other hOther => by
    obtain hOld | rfl := List.mem_or_eq_of_mem_set hOther
    · exact h.keys other hOld
    · rw [List.map_append, List.map_singleton]
      refine (h.keys object (List.mem_of_getElem? hObject)).append (List.nodup_singleton _) ?_
      exact List.disjoint_singleton.2 (Pass.not_mem_of_known?_none hNew)

theorem Keyed.eq_of_format (h : pool.Keyed) {a b : Pass Handle} (hFirst : a ∈ pool.objects)
    (hSecond : b ∈ pool.objects) (hSame : a.format = b.format) : a = b :=
  List.inj_on_of_nodup_map h.formats hFirst hSecond hSame

/-- For the same ops an object has one handle only. -/
theorem Keyed.handle_unique (h : pool.Keyed) {object : Pass Handle} (hObject : object ∈ pool.objects)
    {ops : PassOps} {first second : Handle} (hFirst : ⟨ops, first⟩ ∈ object.instances)
    (hSecond : ⟨ops, second⟩ ∈ object.instances) : first = second :=
  congrArg Instance.handle (List.inj_on_of_nodup_map (h.keys object hObject) hFirst hSecond rfl)

end PassPool

/-- What a call was answered agrees with what the objects hold. -/
structure Turn.Fits (turn : Turn Handle) (pool : PassPool Handle) : Prop where
  object : ∀ number, turn.reply.answer = .object number →
    ∃ object, pool.objects[number]? = some object ∧ turn.call = .get object.format
  pass : ∀ handle, turn.reply.answer = .pass handle →
    ∃ object ∈ pool.objects, turn.format = some object.format ∧
      ∃ reference ops, turn.call = .handle reference ops ∧ ⟨ops, handle⟩ ∈ object.instances

/-- A turn that fits a pool goes on to fit what becomes of the pool, since objects stay where they
are and keep their instances. -/
theorem Turn.Fits.onward {turn : Turn Handle} {pool next : PassPool Handle} (h : turn.Fits pool)
    (onward : pool.Onward next) : turn.Fits next where
  object := fun number hAnswer => by
    obtain ⟨object, hObject, hCall⟩ := h.object number hAnswer
    obtain ⟨more, hNext⟩ := onward.objects number object hObject
    exact ⟨_, hNext, hCall⟩
  pass := fun handle hAnswer => by
    obtain ⟨object, hObject, hFormat, reference, ops, hCall, hIn⟩ := h.pass handle hAnswer
    obtain ⟨number, hAt⟩ := List.mem_iff_getElem?.1 hObject
    obtain ⟨more, hNext⟩ := onward.objects number object hAt
    exact ⟨_, List.mem_of_getElem? hNext, hFormat, reference, ops, hCall,
      List.mem_append_left _ hIn⟩

namespace Scene

variable {s t : Scene State Handle} {event : Event State}

/-- The handles that were made for a format, in the order in which they were made. -/
def creations (s : Scene State Handle) (format : PassFormat) : List Handle :=
  (s.turns.filter (·.format = some format)).flatMap (·.created)

/-- Only a call for this format adds to the creations of the format, and it adds what the device has
given out meanwhile. -/
theorem creations_after (call : Call) (reply : Reply Handle) (pool : PassPool Handle)
    (record : Recorded State Handle) (format : PassFormat) :
    (s.after call reply pool record).creations format =
      s.creations format ++ if s.pool.formatOf? call = some format then
        record.created.drop s.record.created.length else [] := by
  rw [creations, creations, after, List.filter_append, List.flatMap_append, List.filter_singleton]
  by_cases hFormat : s.pool.formatOf? call = some format <;> simp [turn, hFormat]

/-- The history agrees with what the pool holds. -/
structure Explained (s : Scene State Handle) : Prop where
  keyed : s.pool.Keyed
  fits : ∀ turn ∈ s.turns, turn.Fits s.pool
  built : ∀ object ∈ s.pool.objects, s.creations object.format = object.handles
  unbuilt : ∀ format, (∀ object ∈ s.pool.objects, object.format ≠ format) → s.creations format = []

theorem Explained.initial (device : State) :
    (Scene.initial device : Scene State Handle).Explained where
  keyed := ⟨List.nodup_nil, fun _ hIn => nomatch hIn⟩
  fits := fun _ hIn => nomatch hIn
  built := fun _ hIn => nomatch hIn
  unbuilt := fun _ _ => rfl

namespace Step

/-- No call makes a second object for a format, or a second instance for ops that an object
knows. -/
theorem keyed (step : Step factory threshold s event t) (hLedger : s.Ledger) (h : s.pool.Keyed) :
    t.pool.Keyed := by
  cases step with
  | found | known | refused | shared | released | dropped | outside => exact ⟨h.formats, h.keys⟩
  | @built format cached handle device entries hAlive hNew hMade =>
      have hAll := hLedger.cached_of_alive hAlive
      exact h.withObject (fun _ hOld => PassPool.format_ne_of_known?_none hAll hNew hOld) rfl
  | made entries hHeld hObject hNew hMade => exact h.withInstance hObject hNew

/-- An answer that was fitting goes on to be, and the last one is. -/
theorem fits (step : Step factory threshold s event t) (h : ∀ turn ∈ s.turns, turn.Fits s.pool) :
    ∀ turn ∈ t.turns, turn.Fits t.pool := by
  have hOnward := step.onward
  have hOld : ∀ turn ∈ s.turns, turn.Fits t.pool := fun turn hIn => (h turn hIn).onward hOnward
  have hLast {call : Call} {reply : Reply Handle} {pool : PassPool Handle}
      {record : Recorded State Handle} (hAfter : t = s.after call reply pool record)
      (hFits : (s.turn call reply record).Fits t.pool) : ∀ turn ∈ t.turns, turn.Fits t.pool := by
    intro turn hIn
    rw [hAfter] at hIn
    obtain hBefore | hNow := List.mem_append.1 hIn
    · exact hOld turn hBefore
    · rw [List.mem_singleton.1 hNow]
      exact hFits
  cases step with
  | outside device => exact hOld
  | refused | shared | released | dropped =>
      exact hLast rfl ⟨fun _ hAnswer => (nomatch hAnswer), fun _ hAnswer => nomatch hAnswer⟩
  | found hKnown =>
      refine hLast rfl ⟨fun _ hAnswer => ?_, fun _ hAnswer => nomatch hAnswer⟩
      obtain ⟨object, hObject, hFormat⟩ := PassPool.exists_of_known? hKnown
      cases hAnswer
      exact ⟨object, hObject, congrArg Call.get hFormat.symm⟩
  | @built format cached handle device entries hAlive hNew hMade =>
      refine hLast rfl ⟨fun _ hAnswer => ?_, fun _ hAnswer => nomatch hAnswer⟩
      cases hAnswer
      exact ⟨{ format, defaultHandle := handle }, List.getElem?_concat_length, rfl⟩
  | @known reference number ops object handle hHeld hObject hKnown =>
      refine hLast rfl ⟨fun _ hAnswer => (nomatch hAnswer), fun _ hAnswer => ?_⟩
      cases hAnswer
      refine ⟨object, List.mem_of_getElem? hObject, ?_, reference, ops, rfl,
        Pass.mem_instances_of_known? hKnown⟩
      simp [turn, PassPool.formatOf?, hHeld, hObject]
  | @made reference number ops object handle device entries hHeld hObject hNew hMade =>
      refine hLast rfl ⟨fun _ hAnswer => (nomatch hAnswer), fun _ hAnswer => ?_⟩
      cases hAnswer
      have hInside := (List.getElem?_eq_some_iff.1 hObject).1
      refine ⟨_, List.mem_of_getElem? (List.getElem?_set_self hInside), ?_, reference, ops, rfl,
        List.mem_concat_self⟩
      simp [turn, PassPool.formatOf?, hHeld, hObject]

/-- What was made for a format is still what its object holds. -/
theorem creations_eq_handles (step : Step factory threshold s event t) (hLedger : s.Ledger)
    (h : s.Explained) :
    ∀ object ∈ t.pool.objects, t.creations object.format = object.handles := by
  have hNone {call : Call} {reply : Reply Handle} {pool : PassPool Handle}
      {record : Recorded State Handle} (hAfter : t = s.after call reply pool record)
      (hObjects : pool.objects = s.pool.objects) (hCreated : record.created = s.record.created) :
      ∀ object ∈ t.pool.objects, t.creations object.format = object.handles := by
    intro object hObject
    subst hAfter
    rw [creations_after, hCreated, List.drop_length, ite_self, List.append_nil]
    exact h.built object (hObjects ▸ hObject)
  cases step with
  | outside device => exact h.built
  | found | known | refused | shared | released | dropped => exact hNone rfl rfl rfl
  | @built format cached handle device entries hAlive hNew hMade =>
      have hAll := hLedger.cached_of_alive hAlive
      have hOther {old : Pass Handle} (hOld : old ∈ s.pool.objects) : old.format ≠ format :=
        PassPool.format_ne_of_known?_none hAll hNew hOld
      intro object hObject
      rw [creations_after, List.drop_left]
      obtain hOld | hMade := List.mem_append.1 hObject
      · have hApart : ¬ s.pool.formatOf? (.get format) = some object.format := fun hSame =>
          hOther hOld (Option.some.inj hSame).symm
        rw [if_neg hApart, List.append_nil]
        exact h.built object hOld
      · rw [List.mem_singleton.1 hMade, h.unbuilt format fun _ hOld => hOther hOld]
        exact if_pos rfl
  | @made reference number ops old handle device entries hHeld hOld hNew hMade =>
      intro object hObject
      have hFormat : s.pool.formatOf? (.handle reference ops) = some old.format := by
        simp [PassPool.formatOf?, hHeld, hOld]
      rw [creations_after, List.drop_left, hFormat]
      obtain ⟨n, hAt⟩ := List.mem_iff_getElem?.1 hObject
      by_cases hSame : number = n
      · subst hSame
        have hInside := (List.getElem?_eq_some_iff.1 hOld).1
        cases (List.getElem?_set_self hInside).symm.trans hAt
        rw [if_pos rfl, h.built old (List.mem_of_getElem? hOld)]
        simp [Pass.handles]
      · have hBefore : s.pool.objects[n]? = some object := (List.getElem?_set_ne hSame).symm.trans hAt
        have hApart : ¬ some old.format = some object.format := fun hFormats =>
          hSame (h.keyed.number_unique hOld hBefore (Option.some.inj hFormats))
        rw [if_neg hApart, List.append_nil]
        exact h.built object (List.mem_of_getElem? hBefore)

/-- Nothing was made for a format without an object. -/
theorem creations_eq_nil (step : Step factory threshold s event t) (h : s.Explained)
    (format : PassFormat) (hNobody : ∀ object ∈ t.pool.objects, object.format ≠ format) :
    t.creations format = [] := by
  have hBefore : s.creations format = [] := by
    refine h.unbuilt format fun object hObject => ?_
    obtain ⟨number, hAt⟩ := List.mem_iff_getElem?.1 hObject
    obtain ⟨more, hNext⟩ := step.onward.objects number object hAt
    have hApart := hNobody _ (List.mem_of_getElem? hNext)
    exact hApart
  have hNone {call : Call} {reply : Reply Handle} {pool : PassPool Handle}
      {record : Recorded State Handle} (hAfter : t = s.after call reply pool record)
      (hNothing : s.pool.formatOf? call = some format →
        record.created.drop s.record.created.length = []) : t.creations format = [] := by
    rw [hAfter, creations_after, hBefore, List.nil_append]
    exact ite_eq_right_iff.2 hNothing
  cases step with
  | outside device => exact hBefore
  | found | known | refused | shared | released | dropped =>
      exact hNone rfl fun _ => List.drop_length
  | built entries hAlive hNew hMade =>
      refine hNone rfl fun hSame => absurd (Option.some.inj hSame) ?_
      exact hNobody _ List.mem_concat_self
  | @made reference number ops old handle device entries hHeld hOld hNew hMade =>
      refine hNone rfl fun hSame => absurd hSame ?_
      have hInside := (List.getElem?_eq_some_iff.1 hOld).1
      have hApart := hNobody _ (List.mem_of_getElem? (List.getElem?_set_self hInside))
      simpa [PassPool.formatOf?, hHeld, hOld] using hApart

/-- What all earlier calls were given stays explained by the objects of the pool, and the new turn
is explained too. -/
theorem explained (step : Step factory threshold s event t) (hLedger : s.Ledger) (h : s.Explained) :
    t.Explained where
  keyed := step.keyed hLedger h.keyed
  fits := step.fits h.fits
  built := step.creations_eq_handles hLedger h
  unbuilt := step.creations_eq_nil h

end Step

/-- Every run starts with an empty pool and an empty record, which leaves nothing to explain. -/
theorem Explained.of_run? {device : State} {events : List (Event State)}
    (run : (Scene.initial device).run? factory threshold events = some s) :
    s.Ledger ∧ s.Explained := by
  refine foldlM_invariant (P := fun u => u.Ledger ∧ u.Explained) run
    ⟨.initial device, .initial device⟩ fun h hBefore => ?_
  have step := step_of_step? h
  exact ⟨step.ledger hBefore.1, step.explained hBefore.1 hBefore.2⟩

end Scene

end ShaderBackend.Render
