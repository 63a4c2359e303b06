-- SUMMARY: What a task switch does to memory: busy bits, and the descriptors it touches.
import RustyBox.Cpu.TaskSwitch

/-!
# Entering a task

The memory effects of a task switch, byte by byte. The busy bit is one bit of a
descriptor's access byte. Loading the segments of the new task only sets the accessed bit
in access bytes of code and data descriptors (`Touched`), so a TSS descriptor is never
changed by it; `Begun` is what the rest of the switch does once the registers are set.
-/

namespace RustyBox

open Lib BitVec

/-! ## Busy bits -/

namespace TaskProc

variable (s : TaskProc) (sel : Selector)

theorem clearBusy_mem :
    (s.clearBusy sel).mem =
      Function.update s.mem (s.busyAddr sel + 1) (s.mem (s.busyAddr sel + 1) &&& ~~~2#8) := by
  have hmask : ∀ i < 4, i ≠ 1 → byteAt (~~~0x200#32) i = 0xFF#8 := by decide
  apply store_eq_update_second
  · rw [byteAt_and, byteAt_load (by omega)]
    rfl
  · intro i hi hne
    rw [byteAt_and, byteAt_load hi, hmask i hi hne]
    exact and_allOnes

theorem setBusy_mem :
    (s.setBusy sel).mem =
      Function.update s.mem (s.busyAddr sel + 1) (s.mem (s.busyAddr sel + 1) ||| 2#8) := by
  have hmask : ∀ i < 4, i ≠ 1 → byteAt 0x200#32 i = 0#8 := by decide
  apply store_eq_update_second
  · rw [byteAt_or, byteAt_load (by omega)]
    rfl
  · intro i hi hne
    rw [byteAt_or, byteAt_load hi, hmask i hi hne, or_zero]

/-! ## The access byte of a descriptor -/

theorem getLsbD_arByte (d : BxDescriptor) (k : Nat) :
    d.arByte.getLsbD k =
      if k < 4 then d.type.getLsbD k
      else if k < 5 then d.segment
      else if k < 7 then d.dpl.getLsbD (k - 5)
      else decide (k = 7) && d.p := by
  show getLsbD (w := 1 + 2 + 1 + 4)
    (ofBool d.p ++ d.dpl ++ ofBool d.segment ++ d.type) k = _
  simp only [getLsbD_append]
  have h5 : k - 4 < 1 ↔ k < 5 := by omega
  have h7 : k - 4 - 1 < 2 ↔ k < 7 := by omega
  have h7' : ¬ k < 5 → k < 7 → k - 4 - 1 = k - 5 := by omega
  have h8 : ¬ k < 7 → (k - 4 - 1 - 2 = 0 ↔ k = 7) := by omega
  split_ifs <;> simp_all

theorem parseDescriptor_arByte (dword1 dword2 : BitVec 32) :
    (parseDescriptor dword1 dword2).arByte = dword2.extractLsb' 8 8 := by
  apply eq_of_getLsbD_eq
  intro k hk
  rw [getLsbD_arByte]
  unfold parseDescriptor
  interval_cases k <;> simp

variable (addr : Nat)

theorem descriptorAt_arByte : (s.descriptorAt addr).arByte = s.mem (addr + 5) := by
  rw [← show byteAt (load s.mem addr 8) 5 = s.mem (addr + 5) from byteAt_load (by omega)]
  unfold descriptorAt
  rw [parseDescriptor_arByte]
  apply eq_of_getLsbD_eq
  intro k hk
  rw [getLsbD_byteAt, getLsbD_extractLsb', getLsbD_extractLsb', decide_eq_true hk,
    decide_eq_true (show 8 + k < 32 by omega)]
  simp only [Bool.true_and]
  congr 1
  omega

theorem descriptorAt_type : (s.descriptorAt addr).type = (s.mem (addr + 5)).setWidth 4 := by
  rw [← descriptorAt_arByte]
  apply eq_of_getLsbD_eq
  intro k hk
  rw [getLsbD_setWidth, getLsbD_arByte, if_pos hk, decide_eq_true hk, Bool.true_and]

theorem descriptorAt_segment : (s.descriptorAt addr).segment = (s.mem (addr + 5)).getLsbD 4 := by
  rw [← descriptorAt_arByte, getLsbD_arByte]
  rfl

end TaskProc

/-! ## Loading segments -/

/-- A byte `touch_segment` may change: the access byte of a code or data descriptor. -/
def TaskProc.Touchable (s : TaskProc) (a : Nat) : Prop :=
  (s.mem a).getLsbD 4 ∧ ∃ sel, s.inTable sel ∧ a = s.descriptorAddr sel + 5

/-- What loading segments from the descriptor tables may do. -/
structure Touched (s s' : TaskProc) : Prop where
  gdtr : s'.gdtr = s.gdtr
  ldtr : s'.ldtr = s.ldtr
  tr : s'.tr = s.tr
  gpr : s'.gpr = s.gpr
  eip : s'.eip = s.eip
  eflags : s'.eflags = s.eflags
  value : ∀ r, (s'.sregs r).selector.value = (s.sregs r).selector.value
  mem : ∀ a, s'.mem a = s.mem a ∨ s'.mem a = s.mem a ||| 1#8 ∧ s.Touchable a

namespace Touched

variable {s s' s'' : TaskProc}

theorem refl (s : TaskProc) : Touched s s :=
  ⟨rfl, rfl, rfl, rfl, rfl, rfl, fun _ => rfl, fun _ => .inl rfl⟩

theorem touchable (h : Touched s s') {a : Nat} (ha : s'.Touchable a) : s.Touchable a := by
  obtain ⟨hs, sel, hin, haddr⟩ := ha
  refine ⟨?_, sel, ?_, ?_⟩
  · rcases h.mem a with hm | ⟨hm, -⟩
    · rwa [hm] at hs
    · simpa [hm] using hs
  · rwa [TaskProc.inTable, h.gdtr, h.ldtr] at hin
  · rwa [TaskProc.descriptorAddr, TaskProc.tableBase, h.gdtr, h.ldtr] at haddr

theorem trans (h : Touched s s') (h' : Touched s' s'') : Touched s s'' where
  gdtr := h'.gdtr.trans h.gdtr
  ldtr := h'.ldtr.trans h.ldtr
  tr := h'.tr.trans h.tr
  gpr := h'.gpr.trans h.gpr
  eip := h'.eip.trans h.eip
  eflags := h'.eflags.trans h.eflags
  value r := (h'.value r).trans (h.value r)
  mem a := by
    rcases h'.mem a with hm' | ⟨hm', ht'⟩
    · rw [hm']
      exact h.mem a
    · have ht := h.touchable ht'
      rcases h.mem a with hm | ⟨hm, -⟩
      · exact .inr ⟨by rw [hm', hm], ht⟩
      · exact .inr ⟨by rw [hm', hm, BitVec.or_assoc, BitVec.or_self], ht⟩

theorem setCpl (s : TaskProc) (rpl : BitVec 2) : Touched s (s.setCpl rpl) := by
  refine ⟨rfl, rfl, rfl, rfl, rfl, rfl, fun r => ?_, fun _ => .inl rfl⟩
  by_cases hr : r = .cs
  · subst hr
    simp [TaskProc.setCpl]
  · simp [TaskProc.setCpl, hr]

theorem setCache (s : TaskProc) (seg : SegReg) (d : BxDescriptor) : Touched s (s.setCache seg d) := by
  refine ⟨rfl, rfl, rfl, rfl, rfl, rfl, fun r => ?_, fun _ => .inl rfl⟩
  by_cases hr : r = seg
  · subst hr
    simp [TaskProc.setCache]
  · simp [TaskProc.setCache, hr]

end Touched

/-- `Touched` as a frame. -/
def touchFrame : Frame TaskProc := ⟨Touched, Touched.refl, Touched.trans⟩

section OfExcept

variable {α : Type} {f : TaskProc → Except Fault α} {s : TaskProc}

theorem run_ofExcept_ok {a : α} (h : f s = .ok a) : (ofExcept f).run s = .ok a s := by
  simp only [EStateM.run, ofExcept, h]

theorem run_ofExcept_error {e : Fault} (h : f s = .error e) : (ofExcept f).run s = .error e s := by
  simp only [EStateM.run, ofExcept, h]

theorem ofExcept_ok {a : α} {s' : TaskProc} (h : (ofExcept f).run s = .ok a s') :
    s' = s ∧ f s = .ok a := by
  cases hf : f s with
  | ok b =>
    rw [run_ofExcept_ok hf] at h
    cases h
    exact ⟨rfl, rfl⟩
  | error e =>
    rw [run_ofExcept_error hf] at h
    cases h

theorem fetchDescriptorOr_ok {sel : Selector} {vector : Exception} {d : BxDescriptor}
    (h : s.fetchDescriptorOr sel vector = .ok d) : ∃ addr, d = s.descriptorAt addr := by
  unfold TaskProc.fetchDescriptorOr at h
  split at h
  · cases h
    exact ⟨_, rfl⟩
  · cases h

end OfExcept

section Loads

variable {sel : Selector} {seg : SegReg} {s : TaskProc}

theorem touched_touch (hin : s.inTable sel)
    (hs : (s.descriptorAt (s.descriptorAddr sel)).segment) :
    Touched s (finalState ((touchTaskSegment sel (s.descriptorAt (s.descriptorAddr sel)) >>=
      fun d => modify fun s => s.setCache seg d).run s)) := by
  have har := s.descriptorAt_arByte (s.descriptorAddr sel)
  rw [s.descriptorAt_segment] at hs
  generalize s.descriptorAt (s.descriptorAddr sel) = d at har ⊢
  unfold touchTaskSegment
  split
  case isTrue => exact Touched.setCache s seg d
  case isFalse hacc =>
    refine Touched.trans ?_ (Touched.setCache _ seg _)
    refine ⟨rfl, rfl, rfl, rfl, rfl, rfl, fun _ => rfl, fun a => ?_⟩
    have hbyte : ({ d with type := d.type ||| 1#4 } : BxDescriptor).arByte =
        s.mem (s.descriptorAddr sel + 5) ||| 1#8 := by
      rw [← har]
      apply eq_of_getLsbD_eq
      intro k hk
      rw [getLsbD_or, TaskProc.getLsbD_arByte, TaskProc.getLsbD_arByte]
      by_cases h0 : k = 0
      · subst h0
        simp
      · simp [h0]
    by_cases ha : a = s.descriptorAddr sel + 5
    · refine .inr ⟨?_, ?_⟩
      · show store s.mem _ 1 _ a = _
        rw [hbyte, store_one, ha, Function.update_self]
      · subst ha
        exact ⟨hs, sel, hin, rfl⟩
    · refine .inl ?_
      show store s.mem _ 1 _ a = _
      rw [store_one, Function.update_of_ne ha]

/-- A fetch, and what is done with the descriptor. -/
theorem touched_fetch {vector : Exception} {k : BxDescriptor → TaskM PUnit}
    (hk : ∀ s, s.inTable sel →
      Touched s (finalState ((k (s.descriptorAt (s.descriptorAddr sel))).run s))) :
    touchFrame.Holds ((ofExcept fun s => s.fetchDescriptorOr sel vector) >>= k) := by
  intro s
  by_cases hin : s.inTable sel
  · rw [run_bind_of_ok (run_ofExcept_ok (if_pos hin))]
    exact hk s hin
  · rw [run_bind_of_error (run_ofExcept_error (if_neg hin))]
    exact Touched.refl s

variable (raw : BitVec 16)

theorem holds_loadTaskSs (csRpl : BitVec 2) : touchFrame.Holds (loadTaskSs raw csRpl) := by
  refine .ite (.throw _) (touched_fetch fun s hin => ?_)
  split_ifs with hkind hp hdpl hrpl
  all_goals first | exact Touched.refl s | skip
  exact touched_touch hin (by simp at hkind; exact hkind.2.1)

theorem holds_taskSwitchLoadSelector (csRpl : BitVec 2) :
    touchFrame.Holds (taskSwitchLoadSelector seg raw csRpl) := by
  refine .ite (.pure _) (touched_fetch fun s hin => ?_)
  split_ifs with hkind hpriv hp
  all_goals first | exact Touched.refl s | skip
  exact touched_touch hin (by simp at hkind; exact hkind.1)

theorem holds_loadTaskCs : touchFrame.Holds (loadTaskCs raw) := by
  refine .ite (.throw _) (touched_fetch fun s hin => ?_)
  split_ifs with hkind hdpl hrpl hp
  all_goals first | exact Touched.refl s | skip
  exact touched_touch hin (by simp at hkind; exact hkind.2.1)

theorem holds_loadTaskSegments (img : TssImage) : touchFrame.Holds (loadTaskSegments img) := by
  refine .bind (holds_loadTaskSs _ _) fun _ => .bind (.modify fun s => Touched.setCpl s _) fun _ => ?_
  iterate 4 refine .bind (holds_taskSwitchLoadSelector _ _) fun _ => ?_
  exact holds_loadTaskCs _

/-- What entering a task does once its registers are set. -/
structure Begun (finalEflags : BitVec 32) (s u : TaskProc) : Prop where
  gdtr : u.gdtr = s.gdtr
  ldtr : u.ldtr.selector = s.ldtr.selector
  ldtBase : s.ldtr.cache.valid.valid = false → u.ldtr.cache.valid.valid →
    u.ldtr.cache.u.segmentBase.toNat < 2 ^ 32
  tr : u.tr = s.tr
  gpr : u.gpr = s.gpr
  eip : u.eip = s.eip
  eflags : u.eflags = s.eflags
  value : finalEflags.getLsbD 17 = false →
    ∀ r, (u.sregs r).selector.value = (s.sregs r).selector.value
  mem : ∀ a, u.mem a = s.mem a ∨ u.mem a = s.mem a ||| 1#8 ∧ u.Touchable a

variable {s' u : TaskProc}

theorem Touched.begun (h : Touched s s') (f : BitVec 32) : Begun f s s' where
  __ := h
  ldtr := by rw [h.ldtr]
  ldtBase hinv hval := by
    rw [h.ldtr, hinv] at hval
    cases hval
  value _ := h.value
  mem a := by
    rcases h.mem a with hm | ⟨hm, hs, sel, hin, ha⟩
    · exact .inl hm
    · refine .inr ⟨hm, by rw [hm]; simpa using hs, sel, ?_, ?_⟩
      · rwa [TaskProc.inTable, h.gdtr, h.ldtr]
      · rwa [TaskProc.descriptorAddr, TaskProc.tableBase, h.gdtr, h.ldtr]

/-- A bit other than the accessed bit is not changed. -/
theorem Begun.getLsbD {f : BitVec 32} (h : Begun f s u) {a k : Nat} (hk : k ≠ 0) :
    (u.mem a).getLsbD k = (s.mem a).getLsbD k := by
  rcases h.mem a with hm | ⟨hm, -⟩
  · rw [hm]
  · rw [hm]
    simp [hk]

/-- The access byte of a system descriptor is not changed. -/
theorem Begun.of_system {f : BitVec 32} (h : Begun f s u) {a : Nat}
    (ha : (s.mem a).getLsbD 4 = false) : u.mem a = s.mem a := by
  rcases h.mem a with hm | ⟨-, ht⟩
  · exact hm
  · rw [← h.getLsbD (by omega : 4 ≠ 0), ht.1] at ha
    cases ha

theorem TaskProc.descriptorAt_base_lt (s : TaskProc) (addr : Nat) :
    (s.descriptorAt addr).u.segmentBase.toNat < 2 ^ 32 := by
  have hseg : ∀ (dword1 dword2 : BitVec 32) (l : Bool),
      (parseSegment dword1 dword2 l).base.toNat < 2 ^ 32 := by
    intro dword1 dword2 l
    unfold parseSegment
    rw [toNat_setWidth]
    omega
  unfold descriptorAt parseDescriptor parseSystem
  dsimp only
  split_ifs
  all_goals first | exact hseg _ _ _ | exact Nat.two_pow_pos 32

theorem loadTaskLdt_ok {raw : BitVec 16} (h : (loadTaskLdt raw).run s = .ok ⟨⟩ s') :
    ∃ c, s' = { s with ldtr := { s.ldtr with cache := c } } ∧
      (c = s.ldtr.cache ∨ ∃ addr, c = s.descriptorAt addr) := by
  unfold loadTaskLdt at h
  dsimp only at h
  split at h
  case isTrue => cases h
  case isFalse =>
    split at h
    case isTrue =>
      cases h
      exact ⟨_, rfl, .inl rfl⟩
    case isFalse =>
      obtain ⟨d, s₁, hd, hload⟩ := run_bind_ok.mp h
      obtain ⟨rfl, hfetch⟩ := ofExcept_ok hd
      split at hload
      case isTrue => cases hload
      case isFalse =>
        split at hload
        case isTrue => cases hload
        case isFalse =>
          cases hload
          exact ⟨d, rfl, .inr (fetchDescriptorOr_ok hfetch)⟩

theorem foldl_loadSegRegRealMode (img : TssImage) (rs : List SegReg) (s : TaskProc) :
    ∃ sregs, rs.foldl (fun s r => s.loadSegRegRealMode r (img.selector r)) s =
      { s with sregs := sregs } := by
  induction rs generalizing s with
  | nil => exact ⟨s.sregs, rfl⟩
  | cons r rs ih =>
    obtain ⟨sregs, h⟩ := ih (s.loadSegRegRealMode r (img.selector r))
    exact ⟨sregs, h⟩

/-- The protected-mode part, or the virtual-8086 one, which keeps memory. -/
theorem loadTaskSregs_ok {img : TssImage} {finalEflags : BitVec 32}
    (h : (loadTaskSregs img finalEflags).run s = .ok ⟨⟩ s') :
    Begun finalEflags s s' ∧ s'.ldtr = s.ldtr := by
  unfold loadTaskSregs at h
  split at h
  case isTrue hvm =>
    obtain ⟨sregs, hfold⟩ := foldl_loadSegRegRealMode img [.ss, .ds, .es, .fs, .gs, .cs] s
    have hs' : s' = { s with sregs := sregs } := by
      rw [EStateM.run_modify, TaskProc.loadV86Segments, hfold] at h
      injection h with _ h
      exact h.symm
    subst hs'
    refine ⟨⟨rfl, rfl, fun hinv hval => ?_, rfl, rfl, rfl, rfl, fun hvm' => ?_, fun _ => .inl rfl⟩,
      rfl⟩
    · rw [hinv] at hval
      cases hval
    · rw [hvm'] at hvm
      cases hvm
  case isFalse =>
    have ht := (holds_loadTaskSegments img).ok h
    exact ⟨ht.begun finalEflags, ht.ldtr⟩

theorem raiseTrap_eq (d : BxDescriptor) (img : TssImage) (s : TaskProc) :
    ∃ b, s.raiseTrap d img = { s with trap := b } := by
  unfold TaskProc.raiseTrap
  split
  · exact ⟨true, rfl⟩
  · exact ⟨s.trap, rfl⟩

theorem checkTaskEip_ok {eip : BitVec 32} (h : (checkTaskEip eip).run s = .ok ⟨⟩ s') : s' = s := by
  unfold checkTaskEip at h
  rw [run_get_bind] at h
  split at h
  · cases h
  · cases h
    rfl

theorem beginTask_ok {d : BxDescriptor} {img : TssImage} {finalEflags : BitVec 32}
    (h : (beginTask d img finalEflags none).run s = .ok ⟨⟩ u) : Begun finalEflags s u := by
  unfold beginTask at h
  rw [run_modify_bind] at h
  obtain ⟨⟨⟩, s₁, hldt, h₁⟩ := run_bind_ok.mp h
  obtain ⟨⟨⟩, s₂, hregs, h₂⟩ := run_bind_ok.mp h₁
  rw [pushTaskErrorCode, run_bind_of_ok (EStateM.run_pure _ _), run_modify_bind] at h₂
  obtain ⟨hb, hldtr⟩ := loadTaskSregs_ok hregs
  obtain ⟨c, rfl, hc⟩ := loadTaskLdt_ok hldt
  obtain ⟨b, htrap⟩ := raiseTrap_eq d img s₂
  rw [checkTaskEip_ok h₂, htrap]
  refine ⟨hb.gdtr, hb.ldtr, fun hinv hval => ?_, hb.tr, hb.gpr, hb.eip, hb.eflags,
    fun hvm r => (hb.value hvm r).trans ((Touched.setCpl s 3#2).value r), hb.mem⟩
  rw [hldtr] at hval ⊢
  rcases hc with rfl | ⟨addr, rfl⟩
  · have hvalid : s.ldtr.cache.valid.valid = true := hval
    rw [hinv] at hvalid
    cases hvalid
  · exact TaskProc.descriptorAt_base_lt _ addr

end Loads

end RustyBox
