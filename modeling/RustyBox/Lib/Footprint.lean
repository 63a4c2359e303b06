-- SUMMARY: Properties of a memory that depend on part of it only.
import Mathlib.Data.Set.Function

/-!
# Footprints

A property holds on a footprint of a memory if it holds of every memory that agrees with it
there. What happens outside the footprint then leaves it true.
-/

namespace Lib

variable {ι β : Type*}

def HoldsOn (F : Set ι) (P : (ι → β) → Prop) (m : ι → β) : Prop := ∀ m', Set.EqOn m' m F → P m'

namespace HoldsOn

variable {F G : Set ι} {P Q : (ι → β) → Prop} {m m' : ι → β}

theorem holds (h : HoldsOn F P m) : P m := h m (Set.eqOn_refl m F)

theorem mono (h : HoldsOn F P m) (hFG : F ⊆ G) : HoldsOn G P m :=
  fun m' heq => h m' (heq.mono hFG)

theorem congr (h : HoldsOn F P m) (heq : Set.EqOn m' m F) : HoldsOn F P m' :=
  fun m'' heq' => h m'' (heq'.trans heq)

theorem and (hP : HoldsOn F P m) (hQ : HoldsOn F Q m) : HoldsOn F (fun m => P m ∧ Q m) m :=
  fun m' heq => ⟨hP m' heq, hQ m' heq⟩

theorem imp (h : HoldsOn F P m) (himp : ∀ m, P m → Q m) : HoldsOn F Q m :=
  fun m' heq => himp m' (h m' heq)

end HoldsOn

end Lib
