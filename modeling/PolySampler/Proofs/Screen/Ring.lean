import Mathlib.Data.List.Rotate
import Mathlib.Data.Nat.ModEq
import PolySampler.Screen.Ring

/-!
A ring is a queue. What waits in it is read off the places by turning them so that the
oldest sample comes first; then a push is behind all others, and what is read and let go
of is in front, whether or not it goes around the end of the ring.
-/

namespace PolySampler.Screen

/-! ### Queues -/

/-- A ring whose waiting samples form a queue: a push is behind those that wait, and the
pieces that are read are, one after the other, the oldest of them. -/
structure IsQueue {ρ : Type} [RingEnds ρ] (waiting : ρ → List Float32) : Prop where
  push : ∀ {ring ring' : ρ} {sample : Float32}, RingEnds.push? ring sample = some ring' →
    waiting ring' = waiting ring ++ [sample]
  slots : ∀ ring : ρ, RingEnds.slots ring = (waiting ring).length
  chunk : ∀ {ring : ρ} {count : Nat}, count ≤ (waiting ring).length →
    ∃ first second, RingEnds.chunk? ring count = some (first, second) ∧
      first.toList ++ second.toList = (waiting ring).take count
  commit : ∀ {ring : ρ} {count : Nat}, count ≤ (waiting ring).length →
    waiting (RingEnds.commit ring count) = (waiting ring).drop count

section Queue

variable {ρ : Type} [RingEnds ρ] {waiting : ρ → List Float32} {ring : ρ}

/-- Those of some samples that a ring takes, if they are handed over one by one. -/
def taken (ring : ρ) : List Float32 → List Float32
  | [] => []
  | sample :: rest =>
    match RingEnds.push? ring sample with
    | some ring => sample :: taken ring rest
    | none => taken ring rest

theorem IsQueue.waiting_offerAll (h : IsQueue waiting) (ring : ρ) (samples : List Float32) :
    waiting (RingEnds.offerAll ring samples) = waiting ring ++ taken ring samples := by
  induction samples generalizing ring with
  | nil => exact (List.append_nil _).symm
  | cons sample samples ih =>
      rw [RingEnds.offerAll, List.foldl_cons, ← RingEnds.offerAll]
      cases hpush : RingEnds.push? ring sample with
      | some ring' =>
          simp only [taken, hpush, RingEnds.offer, Option.getD_some]
          rw [ih, h.push hpush, List.append_assoc, List.singleton_append]
      | none =>
          simp only [taken, hpush, RingEnds.offer, Option.getD_none]
          exact ih ring

/-- Samples that are handed over until there is no room are handed over one by one, up to
some point. -/
theorem exists_feed_eq (ring : ρ) (samples : List Float32) :
    ∃ offered, offered <+: samples ∧
      RingEnds.feed ring samples = RingEnds.offerAll ring offered := by
  induction samples generalizing ring with
  | nil => exact ⟨[], List.nil_prefix, rfl⟩
  | cons sample samples ih =>
      rw [RingEnds.feed]
      cases hpush : RingEnds.push? ring sample with
      | none => exact ⟨[], List.nil_prefix, rfl⟩
      | some ring' =>
          obtain ⟨offered, hprefix, hfeed⟩ := ih ring'
          refine ⟨sample :: offered, List.cons_prefix_cons.mpr ⟨rfl, hprefix⟩, ?_⟩
          rw [RingEnds.offerAll, List.foldl_cons, RingEnds.offer, hpush]
          exact hfeed

end Queue

/-! ### The places of a ring -/

namespace Ring

def waiting (r : Ring) : List Float32 :=
  (r.places.toList.rotate r.first).take r.count

theorem length_waiting (r : Ring) : r.waiting.length = r.count := by
  rw [waiting, List.length_take, List.length_rotate, Array.length_toList]
  exact Nat.min_eq_left r.count_le

theorem rotate_set {places : List Float32} {first offset : Nat} (h : offset < places.length)
    (sample : Float32) :
    (places.set ((first + offset) % places.length) sample).rotate first =
      (places.rotate first).set offset sample := by
  apply List.ext_getElem
  · rw [List.length_rotate, List.length_set, List.length_set, List.length_rotate]
  intro i hi _
  rw [List.length_rotate, List.length_set] at hi
  have hplace : (first + offset) % places.length = (i + first) % places.length ↔ offset = i := by
    constructor
    · intro heq
      have hmod : offset ≡ i [MOD places.length] :=
        Nat.ModEq.add_left_cancel' first (heq.trans (by rw [Nat.add_comm i]))
      exact hmod.eq_of_lt_of_lt h hi
    · rintro rfl
      rw [Nat.add_comm]
  simp only [List.getElem_rotate, List.getElem_set, List.length_set, hplace]

theorem waiting_push {r r' : Ring} {sample : Float32} (h : r.push? sample = some r') :
    r'.waiting = r.waiting ++ [sample] := by
  rw [push?] at h
  split at h
  · next hroom =>
      obtain rfl := Option.some.inj h
      have hlength : r.count < (r.places.toList.rotate r.first).length := by
        rwa [List.length_rotate, Array.length_toList]
      show ((r.places.set (r.place r.count) sample (r.place_lt r.count)).toList.rotate
        r.first).take (r.count + 1) = _
      rw [Array.toList_set, place, ← Array.length_toList, rotate_set hroom, List.take_add_one,
        List.take_set_of_le (Nat.le_refl _), List.getElem?_set_self hlength]
      rfl
  · cases h

theorem chunk?_eq {r : Ring} {count : Nat} (h : count ≤ r.count) :
    ∃ first second, r.chunk? count = some (first, second) ∧
      first.toList ++ second.toList = r.waiting.take count := by
  refine ⟨_, _, if_pos h, ?_⟩
  have hfirst := r.first_lt
  have hcount := r.count_le
  have hrotate : r.places.toList.rotate r.first =
      r.places.toList.drop r.first ++ r.places.toList.take r.first :=
    List.rotate_eq_drop_append_take (Nat.le_of_lt hfirst)
  have hpiece : r.first + count - r.first = count := by omega
  have hrest : count - (r.places.size - r.first) = r.first + count - r.places.size := by omega
  rw [waiting, List.take_take, Nat.min_eq_left h, hrotate, List.take_append, List.take_take,
    List.length_drop, Array.length_toList, hrest, Nat.min_eq_left (by omega)]
  rw [Array.toList_extract, Array.toList_extract, List.extract_eq_take_drop,
    List.extract_eq_take_drop, hpiece, List.drop_zero, Nat.sub_zero]

theorem waiting_commit {r : Ring} {count : Nat} (h : count ≤ r.count) :
    (r.commit count).waiting = r.waiting.drop count := by
  have hcount := r.count_le
  have hlength : count ≤ (r.places.toList.rotate r.first).length := by
    rw [List.length_rotate, Array.length_toList]
    omega
  have hrotate : r.places.toList.rotate (r.place count) =
      (r.places.toList.rotate r.first).drop count ++
        (r.places.toList.rotate r.first).take count := by
    rw [place, ← Array.length_toList, List.rotate_mod, ← List.rotate_rotate,
      List.rotate_eq_drop_append_take hlength]
  show (r.places.toList.rotate (r.place count)).take (r.count - count) = _
  rw [hrotate, waiting, List.drop_take, List.take_append_of_le_length]
  rw [List.length_drop, List.length_rotate, Array.length_toList]
  omega

/-- A ring is a queue. -/
theorem isQueue : IsQueue waiting where
  push := waiting_push
  slots r := r.length_waiting.symm
  chunk {r _} h := chunk?_eq (r.length_waiting ▸ h)
  commit {r _} h := waiting_commit (r.length_waiting ▸ h)

end Ring

end PolySampler.Screen
