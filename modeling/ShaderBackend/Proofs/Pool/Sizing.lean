import Mathlib.Data.UInt
import ShaderBackend.Pool.Schedule

/-! The number of workers that is derived from the cores, against five sevenths over the whole
numbers. The product is formed before it is divided and clamped, so that on a machine with very many
cores it outgrows its 32 bits, although the result would never be more than 32. -/
namespace ShaderBackend.Pool

/-- The number of workers over the whole numbers. -/
def idealWorkers (cores : Nat) : Nat := min (max ((max cores 1 - 1) * 5 / 7) 1) 32

/-- Most cores for which five times all cores but one fits in 32 bits. -/
def mostSafeCores : UInt32 := 858993460

theorem one_le_max (cores : UInt32) : 1 ≤ max cores 1 := by
  rw [UInt32.le_iff_toNat_le, UInt32.toNat_max]
  exact Nat.le_max_right _ _

/-- A machine without cores counts as one with a core, so that no difference is below zero. -/
theorem toNat_spareCores (cores : UInt32) : (max cores 1 - 1).toNat = max cores.toNat 1 - 1 := by
  rw [UInt32.toNat_sub_of_le _ _ (one_le_max cores), UInt32.toNat_max, UInt32.toNat_one]

theorem idealWorkers_mono {fewer cores : Nat} (h : fewer ≤ cores) :
    idealWorkers fewer ≤ idealWorkers cores := by
  simp only [idealWorkers]
  omega

theorem idealWorkers_bounds (cores : Nat) : 1 ≤ idealWorkers cores ∧ idealWorkers cores ≤ 32 := by
  simp only [idealWorkers]
  omega

theorem toNat_ofNat_idealWorkers (cores : Nat) :
    (UInt32.ofNat (idealWorkers cores)).toNat = idealWorkers cores := by
  have hLimit := (idealWorkers_bounds cores).2
  exact UInt32.toNat_ofNat_of_lt' (by rw [UInt32.size]; omega)

/-- The clamp keeps the limit far away, so only the product decides. -/
theorem product_fits_iff (cores : UInt32) :
    (max cores.toNat 1 - 1) * 5 < UInt32.size ↔ cores ≤ mostSafeCores := by
  have hMost : mostSafeCores.toNat = 858993460 := rfl
  rw [UInt32.le_iff_toNat_le, hMost, UInt32.size]
  omega

/-- A product that fits is divided and clamped as over the whole numbers. -/
theorem clampedQuotient_eq {cores : UInt32} (hSafe : cores ≤ mostSafeCores) :
    min (max ((max cores 1 - 1) * 5 / 7) 1) maxDerivedWorkers =
      UInt32.ofNat (idealWorkers cores.toNat) := by
  have hFits := (product_fits_iff cores).2 hSafe
  have hFive : (5 : UInt32).toNat = 5 := rfl
  rw [← UInt32.toNat_inj, toNat_ofNat_idealWorkers, UInt32.toNat_min, UInt32.toNat_max,
    UInt32.toNat_div, UInt32.toNat_mul, toNat_spareCores, hFive, Nat.mod_eq_of_lt hFits]
  rfl

/-- The difference never aborts, and the product does exactly where it outgrows its bits. -/
theorem derivedWorkers_eq (cores : UInt32) :
    derivedWorkers cores =
      if cores ≤ mostSafeCores then .ok (UInt32.ofNat (idealWorkers cores.toNat))
      else .error .abort := by
  have hSpare : difference32? (max cores 1) 1 = some (max cores 1 - 1) := if_pos (one_le_max cores)
  have hFive : (5 : UInt32).toNat = 5 := rfl
  have hProduct : product32? (max cores 1 - 1) 5 =
      if cores ≤ mostSafeCores then some ((max cores 1 - 1) * 5) else none := by
    rw [product32?, toNat_spareCores, hFive]
    simp only [product_fits_iff]
  rw [derivedWorkers, hSpare]
  change orAbort (product32? (max cores 1 - 1) 5) >>= _ = _
  rw [hProduct]
  by_cases hSafe : cores ≤ mostSafeCores
  · rw [if_pos hSafe, if_pos hSafe]
    exact congrArg Except.ok (clampedQuotient_eq hSafe)
  · rw [if_neg hSafe, if_neg hSafe]
    rfl

/-- A number of workers is derived exactly up to a bound on the cores, and there it is five sevenths
of all cores but one, clamped. Up to the bound more cores never give fewer workers, and past it no pool
starts. A pool that starts has as many workers as were derived. -/
theorem workerCount_exact (platform : Platform) :
    (workerCount 0 platform = .error .abort ↔ mostSafeCores < platform.coreCount) ∧
    (platform.coreCount ≤ mostSafeCores → ∃ count, workerCount 0 platform = .ok count ∧
      count.toNat = idealWorkers platform.coreCount.toNat ∧ 1 ≤ count ∧ count ≤ maxDerivedWorkers ∧
      ∀ smaller : Platform, smaller.coreCount ≤ platform.coreCount →
        ∃ fewer ≤ count, workerCount 0 smaller = .ok fewer) ∧
    ∀ {Env Result : Type} (priority : ThreadPriority) (threshold : Log.Threshold)
      (release : Result → Env → Env) (env : Env),
      (Running.start 0 priority platform threshold release env).map (·.tasks.pool.workers) =
        (workerCount 0 platform).map fun count => List.replicate count.toNat .ready := by
  have hDerived (p : Platform) : workerCount 0 p = _ := derivedWorkers_eq p.coreCount
  refine ⟨?_, fun hSafe => ⟨_, (hDerived _).trans (if_pos hSafe), toNat_ofNat_idealWorkers _, ?_, ?_,
    fun smaller hSmaller => ?_⟩, fun priority threshold release env => ?_⟩
  · rw [hDerived, ← UInt32.not_le]
    split
    · exact iff_of_false nofun (not_not_intro ‹_›)
    · exact iff_of_true rfl ‹_›
  · rw [UInt32.le_iff_toNat_le, toNat_ofNat_idealWorkers]
    exact (idealWorkers_bounds _).1
  · rw [UInt32.le_iff_toNat_le, toNat_ofNat_idealWorkers]
    exact (idealWorkers_bounds _).2
  · have hBelow := UInt32.le_trans hSmaller hSafe
    refine ⟨_, ?_, (hDerived smaller).trans (if_pos hBelow)⟩
    rw [UInt32.le_iff_toNat_le, toNat_ofNat_idealWorkers, toNat_ofNat_idealWorkers]
    exact idealWorkers_mono (UInt32.le_iff_toNat_le.1 hSmaller)
  · rw [Running.start]
    cases workerCount 0 platform <;> rfl

/-- The largest machine whose product fits gets all workers there can be. -/
theorem workerCount_exact_mostSafeCores :
    mostSafeCores ≤ mostSafeCores ∧ ∃ count, workerCount 0 (.portable mostSafeCores) = .ok count ∧
      count.toNat = 32 ∧ ∃ fewer ≤ count, workerCount 0 (.portable 7) = .ok fewer := by
  have hSafe : mostSafeCores ≤ mostSafeCores := UInt32.le_refl _
  obtain ⟨-, hCount, -⟩ := workerCount_exact (.portable mostSafeCores)
  obtain ⟨count, hSome, hIdeal, -, -, hMono⟩ := hCount hSafe
  exact ⟨hSafe, count, hSome, hIdeal, hMono (.portable 7) (by decide)⟩

/-- With one core more there is no number of workers at all. -/
theorem workerCount_pastSafeCores :
    ¬ ∀ platform : Platform, ∃ count, workerCount 0 platform = .ok count ∧
      count.toNat = idealWorkers platform.coreCount.toNat := by
  intro hClaim
  obtain ⟨count, hSome, -⟩ := hClaim (.portable 858993461)
  have hAborts : workerCount 0 (.portable 858993461) = .error .abort := rfl
  cases hSome.symm.trans hAborts

end ShaderBackend.Pool
