import PolySampler.Proofs.Synth.Block
import PolySampler.Proofs.Synth.Calls

/-!
Where the controllers stand. Only calls move them: a control change sets the
controller that its number names once cut to seven bits, and the reset sets all of
them. Scheduling and rendering leave them alone.
-/

namespace PolySampler.Synth

open Signal Midi

/-! ### Reading a controller back -/

theorem toNat_masked (controller : UInt8) :
    (controller &&& 0x7F).toNat = controller.toNat % 128 := by
  rw [UInt8.toNat_and]
  exact Nat.and_two_pow_sub_one_eq_mod controller.toNat 7

/-- Numbers of seven bits name different controllers. -/
theorem sevenBitIndex_masked_eq_iff (controller : UInt8) {number : UInt8}
    (hnumber : number.toNat < 128) :
    sevenBitIndex (controller &&& 0x7F) = sevenBitIndex number ↔
      controller &&& 0x7F = number := by
  have hmasked := toNat_masked controller
  rw [← UInt8.toNat_inj, Fin.ext_iff]
  simp only [sevenBitIndex]
  omega

namespace Controllers

theorem value_setValue (c : Controllers) (controller value : UInt8) {number : UInt8}
    (hnumber : number.toNat < 128) :
    (c.setValue (controller &&& 0x7F) value).value number =
      if controller &&& 0x7F = number then value else c.value number := by
  have hindex := sevenBitIndex_masked_eq_iff controller hnumber
  rw [Fin.ext_iff] at hindex
  simp only [Controllers.value, setValue, Fin.getElem_fin, Vector.getElem_set, hindex]

theorem sustainDown_setValue (c : Controllers) (controller value : UInt8) :
    (c.setValue (controller &&& 0x7F) value).sustainDown =
      if controller &&& 0x7F = sustainController then decide (64 ≤ value) else c.sustainDown := by
  rw [sustainDown, value_setValue c controller value (by decide)]
  split
  · rfl
  · rfl

end Controllers

/-! ### What leaves the controllers alone -/

@[simp] theorem controllers_schedule (s : Synth) (delay : UInt32) (change : Change) :
    (s.schedule delay change).controllers = s.controllers := by
  rw [schedule]
  split <;> rfl

@[simp] theorem voices_schedule (s : Synth) (delay : UInt32) (change : Change) :
    (s.schedule delay change).voices = s.voices :=
  (s.sameRig_schedule delay change).2

theorem controllers_afterChunks (frames offset : Nat) (s : Synth) :
    (s.afterChunks frames offset).controllers = s.controllers := by
  induction offset, s using chunk_induction frames with
  | done offset s h => rw [afterChunks_of_le h]
  | chunk offset s h ih =>
      rw [afterChunks_of_lt h, ih, controllers_afterChunk]
      rfl

@[simp] theorem controllers_renderBlock (s : Synth) (outputs : List (Array Float32)) :
    (s.renderBlock outputs).1.controllers = s.controllers := by
  rw [renderBlock_fst]
  exact controllers_afterChunks (sharedFrames outputs) 0 s

/-! ### What calls do to the controllers -/

theorem controllers_noteOn (delay : UInt32) (key velocity : UInt8) (s : Synth) :
    (noteOn delay key velocity s).controllers = s.controllers := by
  rw [noteOn]
  split
  · rfl
  · rfl

theorem controllers_reset (delay : UInt32) (s : Synth) :
    (s.reset delay).controllers = .initial := by
  simp only [reset, controllers_schedule]
  split
  · rfl
  · rfl

theorem controllers_controlChange (delay : UInt32) (controller value : UInt8) (s : Synth) :
    (controlChange delay controller value s).controllers =
      if controller &&& 0x7F = resetControllers then .initial
      else s.controllers.setValue (controller &&& 0x7F) value := by
  have hother {number : UInt8} (h : controller &&& 0x7F = number)
      (hnumber : number ≠ resetControllers) : ¬ controller &&& 0x7F = resetControllers := by
    rwa [h]
  simp only [controlChange]
  split
  · next h => rw [controllers_schedule, if_neg (hother h (by decide))]
  split
  · next h => rw [controllers_schedule, if_neg (hother h (by decide))]
  split
  · next h =>
      rw [if_neg (hother h (by decide))]
      split
      · rfl
      · rfl
  split
  · next h =>
      rw [if_neg (hother h (by decide))]
      rfl
  split
  · exact controllers_reset delay _
  · split
    · rfl
    · rfl

end PolySampler.Synth
