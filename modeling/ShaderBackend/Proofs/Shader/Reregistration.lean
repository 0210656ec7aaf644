import ShaderBackend.Proofs.Shader.PushConstants

/-! A shader that is registered again. Its slots are there already and say what it says, so nothing
is added to them. Its push constants are merged into themselves, which cuts off a range that runs past
the end of the address space. -/
namespace ShaderBackend.Shader

namespace PushConstRange

variable (r s : PushConstRange)

/-- A hull holds both ranges, so merging one of them again does not widen it. -/
theorem hull_hull_right : (r.hull s).hull s = r.hull s := by
  have hStart : min (r.hull s).offset s.offset = min r.offset s.offset := by
    rw [← UInt32.toNat_inj, UInt32.toNat_min, UInt32.toNat_min, toNat_offset_hull]
    omega
  have hStop : max (r.hull s).stop s.stop = max r.stop s.stop := by
    rw [← UInt32.toNat_inj, UInt32.toNat_max, UInt32.toNat_max, toNat_stop_hull, reach_hull]
    omega
  have hStages : (r.hull s).stages ||| s.stages = r.stages ||| s.stages := by
    rw [hull, UInt32.or_assoc, UInt32.or_self]
  rw [hull, hStart, hStop, hStages]
  rfl

/-- The hull of a range with itself saturates: its reach is the old one, cut at the largest 32-bit
number. -/
theorem reach_hull_self : (r.hull r).reach = min (UInt32.size - 1) r.reach := by
  rw [reach_hull, toNat_stop]
  omega

/-- Merged into itself a range loses what lies past the end of the address space. -/
theorem hull_self_iff : r.hull r = r ↔ r.reach < UInt32.size := by
  constructor
  · intro hSame
    have hReach := reach_hull_self r
    rw [hSame, UInt32.size] at hReach
    rw [UInt32.size]
    omega
  · intro hInside
    refine eq_of_reach_eq ?_ ?_ (UInt32.or_self)
    · rw [toNat_offset_hull]
      omega
    · rw [reach_hull_self]
      omega

/-- Merging a range twice does nothing new the second time unless it came first and reaches past the
32-bit numbers: the first range is stored as it is, and only the second one is cut. -/
theorem merge_merge_iff (known : Option PushConstRange) :
    merge (merge known r) r = merge known r ↔ known ≠ none ∨ r.reach < UInt32.size := by
  cases known with
  | none => simp [merge, hull_self_iff]
  | some known => simp [merge, hull_hull_right]

end PushConstRange

namespace Declaration

variable {d : Declaration} {m : DescriptorMapping}

/-- A declaration adds nothing to the entry that it opens itself. -/
theorem widens_opens (d : Declaration) : d.widens d.opens = d.opens := by
  simp [widens, opens]

/-- Stages and accesses are joined bit by bit, so a declaration widens an entry once. -/
theorem widens_widens (d : Declaration) (binding : DescriptorBinding) :
    d.widens (d.widens binding) = d.widens binding := by
  simp [widens, UInt32.or_assoc]

theorem widens_comm (d e : Declaration) (binding : DescriptorBinding) :
    d.widens (e.widens binding) = e.widens (d.widens binding) := by
  simp [widens, UInt32.or_assoc, UInt32.or_comm d.stage.flag, UInt32.or_comm d.decl.access]

/-- Whether the entry of its slot already says what the declaration says. -/
def Held (d : Declaration) (m : DescriptorMapping) : Prop :=
  ∃ binding, m.bindings.find? (·.slot = d.slot) = some binding ∧ d.widens binding = binding

/-- Whatever the mapping was, a declaration is held after it has been made. -/
theorem held_add (d : Declaration) (m : DescriptorMapping) : d.Held (m.add d) := by
  refine ⟨_, (DescriptorMapping.find?_merge d m.bindings d.slot).trans (if_pos rfl), ?_⟩
  cases m.bindings.find? (·.slot = d.slot) with
  | none => exact widens_opens d
  | some binding => exact widens_widens d binding

/-- What an entry says it goes on saying. -/
theorem Held.add (h : d.Held m) (e : Declaration) : d.Held (m.add e) := by
  obtain ⟨binding, hFound, hHeld⟩ := h
  have hEntry := DescriptorMapping.find?_merge e m.bindings d.slot
  rw [hFound] at hEntry
  by_cases hSame : e.slot = d.slot
  · rw [if_pos hSame] at hEntry
    exact ⟨_, hEntry, (widens_comm d e binding).trans (congrArg e.widens hHeld)⟩
  · rw [if_neg hSame] at hEntry
    exact ⟨binding, hEntry, hHeld⟩

/-- What is held stays held, since later declarations only widen entries. -/
theorem Held.foldl_add (h : d.Held m) (declarations : List Declaration) :
    d.Held (declarations.foldl DescriptorMapping.add m) := by
  induction declarations generalizing m with
  | nil => exact h
  | cons e rest ih => exact ih (h.add e)

/-- A declaration that says nothing new changes nothing. -/
theorem Held.add_eq (h : d.Held m) : m.add d = m := by
  have hMerge (bindings : List DescriptorBinding) {binding : DescriptorBinding}
      (hFound : bindings.find? (·.slot = d.slot) = some binding)
      (hHeld : d.widens binding = binding) :
      DescriptorMapping.merge d.stage d.decl bindings = bindings := by
    induction bindings with
    | nil => cases hFound
    | cons first rest ih =>
        rw [DescriptorMapping.merge_cons]
        by_cases hSame : first.slot = d.slot
        · rw [List.find?_cons_of_pos (by simpa using hSame), Option.some.injEq] at hFound
          rw [if_pos hSame, hFound, hHeld]
        · rw [List.find?_cons_of_neg (by simpa using hSame)] at hFound
          rw [if_neg hSame, ih hFound]
  obtain ⟨binding, hFound, hHeld⟩ := h
  rw [DescriptorMapping.add, DescriptorMapping.declare, hMerge m.bindings hFound hHeld]

end Declaration

namespace DescriptorMapping

/-- After a run of declarations each of them is held, whichever slots they repeat. -/
theorem held_foldl_add {declarations : List Declaration} {d : Declaration}
    (hMem : d ∈ declarations) (m : DescriptorMapping) : d.Held (declarations.foldl add m) := by
  induction declarations generalizing m with
  | nil => cases hMem
  | cons first rest ih =>
      rcases List.mem_cons.1 hMem with rfl | hLater
      · exact (Declaration.held_add d m).foldl_add rest
      · exact ih hLater _

/-- Declarations that are all held change nothing, in whatever order they come. -/
theorem foldl_add_of_held {declarations : List Declaration} {m : DescriptorMapping}
    (h : ∀ d ∈ declarations, d.Held m) : declarations.foldl add m = m := by
  induction declarations with
  | nil => rfl
  | cons d rest ih =>
      rw [List.forall_mem_cons] at h
      rw [List.foldl_cons, h.1.add_eq, ih h.2]

end DescriptorMapping

/-- What a shader declares of its slots, in order. -/
def declarations (s : Shader) : List Declaration := s.slots.map fun decl => ⟨s.stage, decl⟩

/-- The range of push constants has no part in the entries. -/
theorem bindings_declareSlots (s : Shader) (m : DescriptorMapping) :
    (s.declareSlots m).bindings = (s.declarations.foldl DescriptorMapping.add m).bindings := by
  rw [declarations, List.foldl_map, declareSlots]
  split <;> rfl

theorem bindings_declareSlots_twice (s : Shader) (m : DescriptorMapping) :
    (s.declareSlots (s.declareSlots m)).bindings = (s.declareSlots m).bindings := by
  -- Whether a declaration is held depends on the bindings only.
  have hHeld : ∀ d ∈ s.declarations, d.Held (s.declareSlots m) := by
    intro d hMem
    rw [Declaration.Held, bindings_declareSlots]
    exact DescriptorMapping.held_foldl_add hMem m
  rw [bindings_declareSlots s (s.declareSlots m), DescriptorMapping.foldl_add_of_held hHeld]

/-- The one thing a second registration can change is the range of push constants, and the condition
is that of `merge_merge_iff` for the range of the shader. -/
theorem pushConst_declareSlots_twice_iff (s : Shader) (m : DescriptorMapping) :
    (s.declareSlots (s.declareSlots m)).pushConst = (s.declareSlots m).pushConst ↔
      s.interface.pushConstSize = 0 ∨ m.pushConst ≠ none ∨
        s.interface.pushConstOffset.toNat + s.interface.pushConstSize.toNat < UInt32.size := by
  rw [DescriptorMapping.pushConst_declareSlots, DescriptorMapping.pushConst_declareSlots]
  by_cases hNone : s.interface.pushConstSize = 0
  · simp [hNone]
  · simp [hNone, PushConstRange.merge_merge_iff, PushConstRange.reach]

theorem declareSlots_twice_eq_iff (s : Shader) (m : DescriptorMapping) :
    s.declareSlots (s.declareSlots m) = s.declareSlots m ↔
      s.interface.pushConstSize = 0 ∨ m.pushConst ≠ none ∨
        s.interface.pushConstOffset.toNat + s.interface.pushConstSize.toNat < UInt32.size := by
  rw [← pushConst_declareSlots_twice_iff]
  constructor
  · exact fun hSame => congrArg (·.pushConst) hSame
  · intro hRange
    have hBindings := bindings_declareSlots_twice s m
    cases hTwice : s.declareSlots (s.declareSlots m)
    cases hOnce : s.declareSlots m
    rw [hTwice, hOnce] at hBindings hRange
    rw [DescriptorMapping.mk.injEq]
    exact ⟨hBindings, hRange⟩

/-- Registering a shader again leaves the entries and the ids of all slots as they are, and the push
constants too, except for the first range of a mapping if it runs past the end of the address space:
the second registration cuts it off there. A third one never changes anything. -/
theorem declareSlots_again (s : Shader) (m : DescriptorMapping) :
    let once := s.declareSlots m
    let twice := s.declareSlots once
    twice.bindings = once.bindings ∧ (∀ slot, twice.idOf? slot = once.idOf? slot) ∧
      (twice = once ↔ s.interface.pushConstSize = 0 ∨ m.pushConst ≠ none ∨
        s.interface.pushConstOffset.toNat + s.interface.pushConstSize.toNat < UInt32.size) ∧
      s.declareSlots twice = twice := by
  intro once twice
  have hBindings : twice.bindings = once.bindings := bindings_declareSlots_twice s m
  refine ⟨hBindings, fun slot => ?_, declareSlots_twice_eq_iff s m,
    (declareSlots_twice_eq_iff s once).2 ?_⟩
  · rw [DescriptorMapping.idOf?, DescriptorMapping.idOf?, hBindings]
  · by_cases hNone : s.interface.pushConstSize = 0
    · exact .inl hNone
    · refine .inr (.inl ?_)
      rw [DescriptorMapping.pushConst_declareSlots, if_neg hNone]
      exact Option.some_ne_none _

/-- A shader whose push constants run past the end of the address space. -/
def farShader : Shader :=
  Shader.new .vertex [] { pushConstOffset := 0xffffff00, pushConstSize := 0x200 }
    (.emptyModule 1) [] none

/-- The first registration stores the range as it is, and the second one cuts it off. -/
theorem declareSlots_farShader :
    (farShader.declareSlots (.ofRun [])).pushConst = some ⟨0xffffff00, 0x200, 1⟩ ∧
      (farShader.declareSlots (farShader.declareSlots (.ofRun []))).pushConst =
        some ⟨0xffffff00, 0xff, 1⟩ ∧
      farShader.declareSlots (farShader.declareSlots (.ofRun [])) ≠
        farShader.declareSlots (.ofRun []) := by
  have hOnce : (farShader.declareSlots (.ofRun [])).pushConst = some ⟨0xffffff00, 0x200, 1⟩ := by
    decide
  have hTwice : (farShader.declareSlots (farShader.declareSlots (.ofRun []))).pushConst =
      some ⟨0xffffff00, 0xff, 1⟩ := by decide
  refine ⟨hOnce, hTwice, fun hSame => ?_⟩
  rw [hSame, hOnce] at hTwice
  exact absurd hTwice (by decide)

end ShaderBackend.Shader
