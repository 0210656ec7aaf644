import ShaderBackend.Proofs.Render.Keyed
import Mathlib.Data.List.Pairwise

/-! A pool builds one object per format, and an object makes one pass per set of operations. Whoever
asks again gets what was made before, and a request that was refused leaves no trace. -/
namespace ShaderBackend.Render

variable {State Handle : Type} {factory : Factory State PassPlan Handle} {threshold : Log.Threshold}

namespace PassPool

variable {pool : PassPool Handle}

section Distinct

variable (hDistinct : (pool.objects.flatMap Pass.handles).Nodup)
include hDistinct

/-- A handle belongs to one object. -/
theorem eq_of_mem_handles {a b : Pass Handle} {handle : Handle} (hFirst : a ∈ pool.objects)
    (hSecond : b ∈ pool.objects) (hIn : handle ∈ a.handles) (hOther : handle ∈ b.handles) :
    a = b := by
  by_contra hApart
  have hSymm : Std.Symm (Function.onFun List.Disjoint (@Pass.handles Handle)) :=
    ⟨fun _ _ hApart _ hIn hOther => hApart hOther hIn⟩
  have hDisjoint := (List.nodup_flatMap.1 hDistinct).2.forall hFirst hSecond hApart
  exact hDisjoint hIn hOther

/-- A handle belongs to one set of operations. -/
theorem ops_unique {object : Pass Handle} (hObject : object ∈ pool.objects) {first second : PassOps}
    {handle : Handle} (hFirst : ⟨first, handle⟩ ∈ object.instances)
    (hSecond : ⟨second, handle⟩ ∈ object.instances) : first = second := by
  have hHandles := List.nodup_cons.1 ((List.nodup_flatMap.1 hDistinct).1 object hObject)
  exact congrArg Instance.ops (List.inj_on_of_nodup_map hHandles.2 hFirst hSecond rfl)

theorem defaultHandle_ne {a b : Pass Handle} (hFirst : a ∈ pool.objects) (hSecond : b ∈ pool.objects)
    {ops : PassOps} {handle : Handle} (hEntry : ⟨ops, handle⟩ ∈ a.instances) :
    b.defaultHandle ≠ handle := by
  rintro rfl
  have hDefault : b.defaultHandle ∈ b.handles := List.mem_cons_self
  obtain rfl := eq_of_mem_handles hDistinct hFirst hSecond (Pass.mem_handles hEntry) hDefault
  have hHandles := List.nodup_cons.1 ((List.nodup_flatMap.1 hDistinct).1 a hFirst)
  exact hHandles.1 (List.mem_map.2 ⟨_, hEntry, rfl⟩)

end Distinct

end PassPool

namespace Scene

variable {s t : Scene State Handle}

/-- The scene without the first calls of its history. -/
def since (s : Scene State Handle) (past : Nat) : Scene State Handle :=
  { s with turns := s.turns.drop past }

/-- The scene with these calls before its own. -/
def withPast (s : Scene State Handle) (past : List (Turn Handle)) : Scene State Handle :=
  { s with turns := past ++ s.turns }

/-- History plays no part in what happens next. -/
theorem step?_withPast (past : List (Turn Handle)) (event : Event State) :
    (s.withPast past).step? factory threshold event =
      (s.step? factory threshold event).map (·.withPast past) := by
  cases event with
  | outside device => rfl
  | call call => simp [step?, withPast, after, turn, Function.comp_def]

/-- A run does the same whatever calls came before it. -/
theorem run?_withPast (past : List (Turn Handle)) (events : List (Event State)) :
    (s.withPast past).run? factory threshold events =
      (s.run? factory threshold events).map (·.withPast past) := by
  induction events generalizing s with
  | nil => rfl
  | cons event events ih =>
      rw [run?, run?, List.foldlM_cons, List.foldlM_cons, step?_withPast]
      cases s.step? factory threshold event with
      | none => rfl
      | some t => exact ih

/-- Scenes that differ in their history alone go on in the same way. -/
theorem run?_since (hPool : s.pool = t.pool) (hRecord : s.record = t.record)
    (events : List (Event State)) :
    (s.run? factory threshold events).map (·.since s.turns.length) =
      (t.run? factory threshold events).map (·.since t.turns.length) := by
  have hFresh (u : Scene State Handle) :
      (u.run? factory threshold events).map (·.since u.turns.length) =
        ({ u with turns := [] } : Scene State Handle).run? factory threshold events := by
    have hPast : u = ({ u with turns := [] } : Scene State Handle).withPast u.turns := by
      simp [withPast]
    conv_lhs => rw [hPast, run?_withPast, Option.map_map]
    simp [Function.comp_def, since, withPast]
  rw [hFresh, hFresh, hPool, hRecord]

/-- Every format has one object, every set of operations one pass of it, and what is refused is as if
it had not been asked for. -/
structure OneBuild (factory : Factory State PassPlan Handle) (threshold : Log.Threshold)
    (s : Scene State Handle) : Prop where
  /-- Whoever can ask is answered. -/
  answered : ∀ call, (s.step? factory threshold (.call call)).isSome = s.pool.admits call
  /-- Two objects that were got are the same if and only if their formats are. -/
  sameObject : ∀ first ∈ s.turns, ∀ second ∈ s.turns, ∀ f g m n,
    first.call = .get f → first.reply.answer = .object m →
    second.call = .get g → second.reply.answer = .object n → (m = n ↔ f = g)
  /-- Two passes that were asked for are the same if and only if formats and operations are. -/
  samePass : ∀ first ∈ s.turns, ∀ second ∈ s.turns, ∀ r q f g o p h k,
    first.call = .handle r o → first.format = some f → first.reply.answer = .pass h →
    second.call = .handle q p → second.format = some g → second.reply.answer = .pass k →
      (h = k ↔ f = g ∧ o = p)
  /-- No default pass is among the passes that were asked for. -/
  notDefault : ∀ turn ∈ s.turns, ∀ handle, turn.reply.answer = .pass handle →
    ∀ object ∈ s.pool.objects, object.defaultHandle ≠ handle
  /-- As many passes were made for a format as its object counts, and the default pass. -/
  builds : s.pool.cached.isSome → ∀ format, (s.creations format).length =
    ((s.pool.object? format).map (1 + ·.instanceCount)).getD 0
  /-- It is the device that refuses. The pool stays as it was and logs an entry, and what comes then is
  what would have come without the call, on the device as it is. -/
  refused : ∀ call cause t, s.step? factory threshold (.call call) = some t → Refused s t cause →
    ∃ plan device, factory.create plan s.record.device = (.error cause, device) ∧
      t = s.after call ⟨.refused cause, refusalEntries threshold cause⟩ s.pool
        { s.record with device } ∧
      ∀ events, (t.run? factory threshold events).map (·.since t.turns.length) =
        ((s.withDevice device).run? factory threshold events).map (·.since s.turns.length)

/-- Requests share their object exactly when they ask for the same format. -/
theorem Explained.sameObject (h : s.Explained) {first second : Turn Handle} (hFirst : first ∈ s.turns)
    (hSecond : second ∈ s.turns) {f g : PassFormat} {m n : Nat} (hGet : first.call = .get f)
    (hGot : first.reply.answer = .object m) (hGetAgain : second.call = .get g)
    (hGotAgain : second.reply.answer = .object n) : m = n ↔ f = g := by
  obtain ⟨a, hAt, hCall⟩ := (h.fits first hFirst).object m hGot
  obtain ⟨b, hAtOther, hCallOther⟩ := (h.fits second hSecond).object n hGotAgain
  cases hGet.symm.trans hCall
  cases hGetAgain.symm.trans hCallOther
  constructor
  · rintro rfl
    cases hAt.symm.trans hAtOther
    rfl
  · exact h.keyed.number_unique hAt hAtOther

/-- Handles are equal exactly when format and operations are, since handles of different keys were
created apart. -/
theorem Explained.samePass (h : s.Explained) (hDistinct : (s.pool.objects.flatMap Pass.handles).Nodup)
    {first second : Turn Handle} (hFirst : first ∈ s.turns) (hSecond : second ∈ s.turns)
    {r q : Nat} {f g : PassFormat} {o p : PassOps} {handle other : Handle}
    (hCall : first.call = .handle r o) (hFormat : first.format = some f)
    (hAnswer : first.reply.answer = .pass handle) (hCallOther : second.call = .handle q p)
    (hFormatOther : second.format = some g) (hAnswerOther : second.reply.answer = .pass other) :
    handle = other ↔ f = g ∧ o = p := by
  obtain ⟨a, hObject, hOf, _, _, hAsked, hIn⟩ := (h.fits first hFirst).pass handle hAnswer
  obtain ⟨b, hObjectOther, hOfOther, _, _, hAskedOther, hInOther⟩ :=
    (h.fits second hSecond).pass other hAnswerOther
  cases hFormat.symm.trans hOf
  cases hFormatOther.symm.trans hOfOther
  cases hCall.symm.trans hAsked
  cases hCallOther.symm.trans hAskedOther
  constructor
  · rintro rfl
    obtain rfl := PassPool.eq_of_mem_handles hDistinct hObject hObjectOther
      (Pass.mem_handles hIn) (Pass.mem_handles hInOther)
    exact ⟨rfl, PassPool.ops_unique hDistinct hObject hIn hInOther⟩
  · rintro ⟨hSame, rfl⟩
    obtain rfl := h.keyed.eq_of_format hObject hObjectOther hSame
    exact h.keyed.handle_unique hObject hIn hInOther

/-- As many passes were created for a format as its object holds, the default one included. -/
theorem Explained.builds (h : s.Explained) (hLedger : s.Ledger) (hAlive : s.pool.cached.isSome)
    (format : PassFormat) :
    (s.creations format).length = ((s.pool.object? format).map (1 + ·.instanceCount)).getD 0 := by
  obtain ⟨cached, hCached⟩ := Option.isSome_iff_exists.1 hAlive
  have hAll := hLedger.cached_of_alive hCached
  cases hKnown : s.pool.known? format with
  | none =>
      have hNobody : ∀ object ∈ s.pool.objects, object.format ≠ format := fun _ hIn =>
        PassPool.format_ne_of_known?_none hAll hKnown hIn
      simp [PassPool.object?, hKnown, h.unbuilt format hNobody]
  | some number =>
      obtain ⟨object, hObject, rfl⟩ := PassPool.exists_of_known? hKnown
      rw [h.built object (List.mem_of_getElem? hObject)]
      simp [PassPool.object?, hKnown, hObject, Pass.handles, Pass.instanceCount, Nat.add_comm]

/-- If the device makes no handle twice, the pool builds one object per format, and an object one pass
per set of operations. -/
theorem one_build {device : State} {events : List (Event State)}
    (run : (initial device).run? factory threshold events = some s)
    (hFresh : s.record.created.Nodup) : s.OneBuild factory threshold := by
  obtain ⟨hLedger, hExplained⟩ := Explained.of_run? run
  have hDistinct : (s.pool.objects.flatMap Pass.handles).Nodup := by
    rw [← PassPool.handlesOf_numbers]
    exact hLedger.created.nodup_iff.1 hFresh
  exact
    { answered := hLedger.isSome_step?
      sameObject := fun _ hFirst _ hSecond _ _ _ _ hGet hGot hGetAgain hGotAgain =>
        hExplained.sameObject hFirst hSecond hGet hGot hGetAgain hGotAgain
      samePass := fun _ hFirst _ hSecond _ _ _ _ _ _ _ _ hCall hFormat hAnswer hAgain hOther hSame =>
        hExplained.samePass hDistinct hFirst hSecond hCall hFormat hAnswer hAgain hOther hSame
      notDefault := fun turn hTurn handle hAnswer object hObject => by
        obtain ⟨holder, hHolder, _, _, _, _, hIn⟩ := (hExplained.fits turn hTurn).pass handle hAnswer
        exact PassPool.defaultHandle_ne hDistinct hHolder hObject hIn
      builds := hExplained.builds hLedger
      refused := fun call cause t hStep hRefused => by
        obtain ⟨plan, device, hDevice, rfl⟩ := (step_of_step? hStep).refused_eq hRefused
        exact ⟨plan, device, hDevice, rfl, run?_since rfl rfl⟩ }

/-- Two formats and two sets of operations. The device refuses an object and a pass at first. -/
def askedAgain : List (Event (LedgerDevice PassPlan)) :=
  [.outside { refusal := some .outOfMemory }, .call (.get {}), .outside {}, .call (.get {}),
    .call (.get { samples := .s4 }), .call (.handle 0 {}),
    .outside { created := 3, refusal := some .outOfMemory },
    .call (.handle 0 { depth := { loadDepth := .clear } }), .outside { created := 3 },
    .call (.handle 0 { depth := { loadDepth := .clear } }), .call (.handle 0 {})]

theorem one_build_askedAgain :
    ∃ s, (initial {}).run? (LedgerDevice.factory PassPlan) none askedAgain = some s ∧
      s.record.created = [1, 2, 3, 4] ∧ (s.creations {}).length = 3 := by
  obtain ⟨s, hRun, hCreated, hAlive, hObject⟩ :
      ∃ s, (initial {}).run? (LedgerDevice.factory PassPlan) none askedAgain = some s ∧
        s.record.created = [1, 2, 3, 4] ∧ s.pool.cached = some [0, 1] ∧
        (s.pool.object? {}).map Pass.instanceCount = some 2 :=
    ⟨_, rfl, rfl, rfl, rfl⟩
  have hBuilds := (one_build hRun (by rw [hCreated]; decide)).builds (by rw [hAlive]; rfl) {}
  obtain ⟨object, hSome, hCount⟩ := Option.map_eq_some_iff.1 hObject
  rw [hSome, Option.map_some, hCount] at hBuilds
  exact ⟨s, hRun, hCreated, hBuilds⟩

end Scene

end ShaderBackend.Render
