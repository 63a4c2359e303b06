-- SUMMARY: A task entered by CALL returns; one entered by an interrupt does not.
import RustyBox.Cpu.TaskEntry
import RustyBox.Lib.Reachability
import Mathlib.Order.CompletePartialOrder
import Mathlib.Order.Interval.Set.Disjoint

/-!
# Nested tasks

A task entry followed by an IRET, for two 386 TSSs that overlap neither each other nor the
descriptor tables. A CALL saves the first task, links to it and leaves it busy, and the
IRET reads back what was saved. An interrupt through a task gate calls `task_switch` with
the code of a JMP: the first TSS is marked available and nothing links back to it.
-/

namespace RustyBox

open Lib BitVec Function TaskProc BxDescriptor

/-! ## Saving and reading back -/

namespace TssSlot

theorem mem_all (k : TssSlot) : k ∈ all := by
  cases k with
  | eip | eflags => decide
  | gpr r => revert r; decide
  | seg r => cases r <;> decide

theorem apart_of_mem : ∀ k ∈ all, ∀ k' ∈ all, k' ≠ k →
    k.offset + k.size ≤ k'.offset ∨ k'.offset + k'.size ≤ k.offset := by
  decide

theorem bounds_of_mem : ∀ k ∈ all, 0x20 ≤ k.offset ∧ k.offset + k.size ≤ 0x60 := by
  decide

/-- The slots lie in the part of the TSS before the LDT selector. -/
theorem bounds (k : TssSlot) : 0x20 ≤ k.offset ∧ k.offset + k.size ≤ 0x60 :=
  bounds_of_mem k k.mem_all

end TssSlot

/-- The bytes of a 386 TSS a switch uses. -/
def BxDescriptor.tssBytes (d : BxDescriptor) : Set Nat :=
  Set.Ico d.tssBase.toNat (d.tssBase.toNat + 0x68)

theorem mem_tssBytes {d : BxDescriptor} {a : Nat} :
    a ∈ d.tssBytes ↔ d.tssBase.toNat ≤ a ∧ a < d.tssBase.toNat + 0x68 :=
  Set.mem_Ico

/-- A 32-bit address within a segment that ends below 4 GiB. -/
theorem toNat_add_ofNat {base : BitVec 32} {k : Nat} (hk : k ≤ 0x67)
    (htop : base.toNat + 0x67 < 2 ^ 32) : (base + BitVec.ofNat 32 k).toNat = base.toNat + k := by
  rw [toNat_add, toNat_ofNat]
  omega

namespace TaskProc

variable {s : TaskProc} {f : BitVec 32}

variable (h386 : s.tr.cache.isTss286 = false)
include h386

/-- A 386 TSS receives every slot. -/
theorem saveState_mem :
    (s.saveState f).mem = TssSlot.all.foldl
      (fun mem k => store mem (s.tr.cache.tssBase.toNat + k.offset) k.size (s.slotValue f k)) s.mem := by
  unfold saveState
  simp [h386]

theorem saveState_of_outside {a : Nat}
    (ha : a < s.tr.cache.tssBase.toNat + 0x20 ∨ s.tr.cache.tssBase.toNat + 0x60 ≤ a) :
    (s.saveState f).mem a = s.mem a := by
  rw [saveState_mem h386]
  have hsave : ∀ (ks : List TssSlot) (mem : Nat → BitVec 8), ks.foldl
      (fun mem k => store mem (s.tr.cache.tssBase.toNat + k.offset) k.size (s.slotValue f k))
      mem a = mem a := by
    intro ks
    induction ks with
    | nil => exact fun _ => rfl
    | cons k ks ih =>
      intro mem
      rw [List.foldl_cons, ih]
      have hb := k.bounds
      exact store_of_outside (by omega)
  exact hsave _ _

theorem saveState_of_not_mem {a : Nat}
    (ha : a ∉ s.tr.cache.tssBytes) : (s.saveState f).mem a = s.mem a := by
  rw [mem_tssBytes] at ha
  exact saveState_of_outside h386 (by omega)

/-- What was saved in a slot is read from it. -/
theorem readSlot_saveState (htop : s.tr.cache.tssBase.toNat + 0x67 < 2 ^ 32) (k : TssSlot) :
    (s.saveState f).readSlot s.tr.cache.tssBase k = s.slotValue f k := by
  unfold readSlot
  have hb := k.bounds
  rw [saveState_mem h386, toNat_add_ofNat (by omega) htop]
  refine read_foldl_of_mem (r := fun mem => setWidth 32
    (load mem (s.tr.cache.tssBase.toNat + k.offset) k.size)) (fun mem => ?_) (fun mem k' hne => ?_)
    k.mem_all s.mem
  · rw [load_store_setWidth]
    cases k with
    | eip | eflags | gpr r => exact setWidth_eq _
    | seg r =>
      have hword : ((s.sregs r).selector.value.setWidth 32).setWidth 16 =
          (s.sregs r).selector.value := by simp
      exact congrArg (setWidth 32) hword
  · have hapart := TssSlot.apart_of_mem k k.mem_all k' k'.mem_all hne
    rw [load_store_of_disjoint (by omega)]

end TaskProc

/-! ## Two tasks -/

namespace TaskProc

/-- The bytes of the GDT. -/
def gdtBytes (s : TaskProc) : Set Nat :=
  Set.Ico s.gdtr.base.toNat (s.gdtr.base.toNat + s.gdtr.limit.toNat + 1)

/-- Where the GDT holds the descriptor of a selector. -/
def gdtEntry (s : TaskProc) (sel : Selector) : Nat :=
  s.gdtr.base.toNat + 8 * sel.index.toNat

/-- The bytes of the LDT in use. -/
def ldtBytes (s : TaskProc) : Set Nat :=
  { a | s.ldtr.cache.valid.valid ∧ s.ldtr.cache.u.segmentBase.toNat ≤ a ∧
    a ≤ s.ldtr.cache.u.segmentBase.toNat + s.ldtr.cache.u.segmentLimitScaled.toNat }

end TaskProc

/-- `sel` names a 386 TSS descriptor of the given type in the GDT. -/
structure Tss386 (s : TaskProc) (sel : Selector) (d : BxDescriptor) (type : BitVec 4) : Prop where
  global : sel.ti = false
  inGdt : 8 * sel.index.toNat + 7 ≤ s.gdtr.limit.toNat
  described : s.descriptorAt (s.descriptorAddr sel) = d
  system : d.segment = false
  valid : d.valid.valid
  type : d.type = type
  present : d.p
  limit : 0x67#32 ≤ d.u.segmentLimitScaled
  top : d.u.segmentBase.toNat + 0x67 < 2 ^ 32

/-- The second task's segments load when it is entered. -/
def SecondLoads (s : TaskProc) (e : TaskEntry) (sel : Selector) (d : BxDescriptor) : Prop :=
  succeeded ((beginTask d (s.nextImage d e.source) (s.finalEflags d e.source) none).run
    (s.arrive sel d e.source))

/-- The first task's segments load when the IRET in `t` returns to it. -/
def FirstLoads (s t : TaskProc) : Prop :=
  succeeded ((beginTask s.tr.cache (t.nextImage s.tr.cache bxTaskFromIret)
    (t.finalEflags s.tr.cache bxTaskFromIret) none).run
    (t.arrive s.tr.selector s.tr.cache bxTaskFromIret))

/-- Two tasks, the first running and the second entered through `e`: valid TSSs, apart from
each other and from the descriptor tables, with segments that load. -/
structure NestedTasks (s : TaskProc) (e : TaskEntry) (sel : Selector) (d : BxDescriptor) : Prop where
  protectedMode : s.eflags.getLsbD 17 = false
  target : e.target s = .ok (some (sel, d))
  first : Tss386 s s.tr.selector s.tr.cache 0xB#4
  second : Tss386 s sel d 0x9#4
  parsed : parseSelector s.tr.selector.value = s.tr.selector
  gdtTop : s.gdtr.base.toNat + s.gdtr.limit.toNat < 2 ^ 32
  tssApart : Disjoint s.tr.cache.tssBytes d.tssBytes
  gdtFirst : Disjoint s.gdtBytes s.tr.cache.tssBytes
  gdtSecond : Disjoint s.gdtBytes d.tssBytes
  ldtApart : ∀ t, e.enter.run s = .ok .switched t →
    Disjoint t.ldtBytes (s.gdtBytes ∪ s.tr.cache.tssBytes ∪ d.tssBytes)
  secondLoads : SecondLoads s e sel d
  firstLoads : ∀ t, e.enter.run s = .ok .switched t → FirstLoads s t

/-- `u` is the first task again, as it was left in `s`. -/
structure Resumed (s u : TaskProc) (sel : Selector) : Prop where
  eip : u.eip = s.eip
  gpr : u.gpr = s.gpr
  selectors : ∀ r, (u.sregs r).selector.value = (s.sregs r).selector.value
  ldt : u.ldtr.selector.value = s.ldtr.selector.value
  eflags : u.eflags = s.eflags
  tr : u.tr.selector = s.tr.selector
  firstBusy : (u.descriptorAt (u.descriptorAddr s.tr.selector)).type = 0xB#4
  secondAvailable : (u.descriptorAt (u.descriptorAddr sel)).type = 0x9#4

/-- The task entry and the IRET resume the first task. -/
def Resumes (s : TaskProc) (e : TaskEntry) (sel : Selector) : Prop :=
  ∃ u, e.roundTrip s = some u ∧ Resumed s u sel

section Transfer

variable {s t : TaskProc} {sel : Selector} {d : BxDescriptor} {source : BitVec 32}
  {target : TaskProc → TaskProc.Target}

/-- A transfer with a target whose TSSs are long enough and whose segments load. -/
theorem transfer_switched (htarget : target s = .ok (some (sel, d)))
    (hnew : d.newTssMax ≤ d.u.segmentLimitScaled)
    (hold : s.tr.cache.oldTssMax ≤ s.tr.cache.u.segmentLimitScaled)
    (hbegin : (beginTask d (s.nextImage d source) (s.finalEflags d source) none).run
      (s.arrive sel d source) = .ok ⟨⟩ t) :
    (transfer target source).run s = .ok .switched t := by
  unfold transfer
  rw [run_bind_of_ok (run_ofExcept_ok htarget)]
  have hswitch : (taskSwitch sel d source none).run s = .ok ⟨⟩ t := by
    unfold taskSwitch
    rw [run_get_bind, if_neg (BitVec.not_lt.mpr hnew), if_neg (BitVec.not_lt.mpr hold)]
    exact hbegin
  exact run_bind_of_ok hswitch

theorem switched_inv (h : (transfer target source).run s = .ok .switched t) :
    ∃ sel d, target s = .ok (some (sel, d)) ∧
      (beginTask d (s.nextImage d source) (s.finalEflags d source) none).run
        (s.arrive sel d source) = .ok ⟨⟩ t := by
  unfold transfer at h
  cases htarget : target s with
  | error f =>
    rw [run_bind_of_error (run_ofExcept_error htarget)] at h
    cases h
  | ok o =>
    rw [run_bind_of_ok (run_ofExcept_ok htarget)] at h
    rcases o with _ | ⟨sel, d⟩
    · cases h
    · refine ⟨sel, d, rfl, ?_⟩
      obtain ⟨⟨⟩, t', hswitch, hret⟩ := run_bind_ok.mp h
      cases hret
      unfold taskSwitch at hswitch
      rw [run_get_bind] at hswitch
      split at hswitch
      case isTrue => cases hswitch
      case isFalse =>
        split at hswitch
        case isTrue => cases hswitch
        case isFalse => rwa [run_set_bind] at hswitch

end Transfer

section Addresses

variable {s : TaskProc} {sel : Selector} (htop : s.gdtr.base.toNat + s.gdtr.limit.toNat < 2 ^ 32)
include htop

theorem descriptorAddr_of_global (hti : sel.ti = false)
    (hin : 8 * sel.index.toNat + 7 ≤ s.gdtr.limit.toNat) : s.descriptorAddr sel = s.gdtEntry sel := by
  unfold TaskProc.descriptorAddr TaskProc.tableBase TaskProc.gdtEntry
  rw [hti, if_pos (by decide), toNat_add, toNat_mul, toNat_setWidth, toNat_ofNat]
  omega

theorem busyAddr_of_global (hin : 8 * sel.index.toNat + 7 ≤ s.gdtr.limit.toNat) :
    s.busyAddr sel = s.gdtEntry sel + 4 := by
  unfold busyAddr gdtEntry
  rw [toNat_setWidth, toNat_add, toNat_add, toNat_mul, toNat_setWidth, toNat_ofNat, toNat_ofNat]
  omega

/-- A byte that is touched is the access byte of a GDT entry, or in the LDT. -/
theorem touchable_cases {a : Nat} (h : s.Touchable a)
    (hldt : s.ldtr.cache.valid.valid → s.ldtr.cache.u.segmentBase.toNat < 2 ^ 32) :
    (∃ j, 8 * j + 7 ≤ s.gdtr.limit.toNat ∧ a = s.gdtr.base.toNat + 8 * j + 5) ∨ a ∈ s.ldtBytes := by
  obtain ⟨-, sel, hin, rfl⟩ := h
  cases hti : sel.ti with
  | false =>
    simp only [inTable, hti, Bool.false_eq_true, not_false_eq_true, if_true,
      decide_eq_true_eq] at hin
    exact .inl ⟨sel.index.toNat, hin, by rw [descriptorAddr_of_global htop hti hin]; rfl⟩
  | true =>
    simp only [inTable, hti, not_true_eq_false, if_false, decide_eq_true_eq] at hin
    have hbase := hldt hin.1
    refine .inr ⟨hin.1, ?_, ?_⟩
    all_goals
      unfold TaskProc.descriptorAddr TaskProc.tableBase
      rw [hti, if_neg (by decide), toNat_add, toNat_mul, toNat_setWidth, toNat_ofNat]
      omega

end Addresses

/-! ## The state a task is entered in -/

namespace TaskProc

variable (s : TaskProc) (sel : Selector) (d : BxDescriptor) (source : BitVec 32)

theorem leave_eq : s.leave d source = { s with mem := (s.leave d source).mem } := by
  unfold leave
  split_ifs <;> rfl

theorem leave_call : s.leave d bxTaskFromCall = (s.saveState (s.oldEflags d)).writeLink d := by
  unfold leave
  rw [if_pos (by decide), if_neg (by decide)]

/-- A JMP and an IRET leave no link. -/
theorem leave_unlinked {source : BitVec 32} (h : source = 0x2#32 ∨ source = bxTaskFromIret) :
    s.leave d source = (s.clearBusy s.tr.selector).saveState (s.oldEflags d) := by
  unfold leave
  rcases h with rfl | rfl <;> rw [if_neg (by decide), if_pos (by decide)]

theorem arrive_eq : s.arrive sel d source =
    { s.commit sel d (s.nextImage d source) (s.finalEflags d source) with
      mem := (s.arrive sel d source).mem } := by
  unfold arrive
  rw [leave_eq]
  split_ifs <;> rfl

theorem arrive_mem (hsource : source ≠ bxTaskFromIret) :
    (s.arrive sel d source).mem = ((s.leave d source).setBusy sel).mem := by
  unfold arrive
  dsimp only
  rw [if_pos hsource]
  rfl

theorem arrive_mem_iret : (s.arrive sel d bxTaskFromIret).mem =
    ((s.clearBusy s.tr.selector).saveState (s.oldEflags d)).mem := by
  rfl

end TaskProc

namespace Tss386

variable {s t : TaskProc} {sel : Selector} {d : BxDescriptor} {type : BitVec 4}
  (h : Tss386 s sel d type) (htop : s.gdtr.base.toNat + s.gdtr.limit.toNat < 2 ^ 32)

include h

theorem accessByte_mem {i : Nat} (hi : i < 8) : s.gdtEntry sel + i ∈ s.gdtBytes := by
  have := h.inGdt
  simp only [gdtEntry, gdtBytes, Set.mem_Ico]
  omega

theorem tssBase : d.tssBase.toNat = d.u.segmentBase.toNat := by
  have := h.top
  unfold BxDescriptor.tssBase
  rw [toNat_setWidth]
  omega

include htop

/-- The address of the descriptor, also once another task with the same GDT runs. -/
theorem addr (hgdtr : t.gdtr = s.gdtr) : t.descriptorAddr sel = s.gdtEntry sel := by
  rw [descriptorAddr_of_global (by rwa [hgdtr]) h.global (by rw [hgdtr]; exact h.inGdt)]
  unfold gdtEntry
  rw [hgdtr]

theorem accessByte_type : (s.mem (s.gdtEntry sel + 5)).setWidth 4 = type := by
  rw [← h.addr htop rfl, ← s.descriptorAt_type, h.described, h.type]

theorem accessByte_system : (s.mem (s.gdtEntry sel + 5)).getLsbD 4 = false := by
  rw [← h.addr htop rfl, ← s.descriptorAt_segment, h.described, h.system]

end Tss386

section Entered

variable {s t : TaskProc} {sel : Selector} {d : BxDescriptor} {f source : BitVec 32}
  (hb : Begun f (s.arrive sel d source) t)
include hb

theorem entered_gdtr : t.gdtr = s.gdtr := by
  rw [hb.gdtr, arrive_eq]
  rfl

theorem entered_tr : t.tr = ⟨sel, { d with type := d.type ||| 2#4 }⟩ := by
  rw [hb.tr]
  rfl

end Entered

namespace NestedTasks

variable {s t : TaskProc} {e : TaskEntry} {sel : Selector} {d : BxDescriptor}
  (h : NestedTasks s e sel d)
include h

/-- The two TSS descriptors are different entries of the GDT. -/
theorem entries_apart : s.gdtEntry s.tr.selector + 8 ≤ s.gdtEntry sel ∨
    s.gdtEntry sel + 8 ≤ s.gdtEntry s.tr.selector := by
  by_contra hnear
  unfold gdtEntry at hnear
  have heq : s.gdtEntry s.tr.selector = s.gdtEntry sel := by
    unfold gdtEntry
    omega
  have h₁ := h.first.accessByte_type h.gdtTop
  rw [heq, h.second.accessByte_type h.gdtTop] at h₁
  cases h₁

theorem first_isTss386 : s.tr.cache.isTss286 = false := by
  unfold isTss286
  rw [h.first.type]
  decide

theorem first_top : s.tr.cache.tssBase.toNat + 0x67 < 2 ^ 32 := by
  rw [h.first.tssBase]
  exact h.first.top

theorem entered :
    ∃ t, e.enter.run s = .ok .switched t ∧
      Begun (s.finalEflags d e.source) (s.arrive sel d e.source) t := by
  have hb := eq_ok_of_succeeded h.secondLoads
  refine ⟨_, transfer_switched h.target ?_ ?_ hb, beginTask_ok hb⟩
  · have := h.second.limit
    unfold newTssMax isTss286
    rw [h.second.type]
    exact this
  · have := h.first.limit
    unfold oldTssMax
    rw [h.first_isTss386]
    exact BitVec.le_trans (by decide) this

/-! ### After a CALL -/

/-- Memory after a CALL: the saved state, the back link, and the busy bit of the second TSS. -/
theorem call_mem (a : Nat) :
    (s.arrive sel d bxTaskFromCall).mem a =
      if a = s.gdtEntry sel + 5 then s.mem a ||| 2#8
      else if d.tssBase.toNat ≤ a ∧ a < d.tssBase.toNat + 2 then
        byteAt s.tr.selector.value (a - d.tssBase.toNat)
      else (s.saveState (s.oldEflags d)).mem a := by
  have hbusy : (s.leave d bxTaskFromCall).busyAddr sel = s.gdtEntry sel + 4 := by
    exact busyAddr_of_global h.gdtTop h.second.inGdt
  rw [arrive_mem _ _ _ _ (by decide), setBusy_mem, hbusy]
  by_cases ha : a = s.gdtEntry sel + 5
  · have hgdt : a ∈ s.gdtBytes := by
      rw [ha]
      exact h.second.accessByte_mem (by omega)
    have hfirst : a ∉ s.tr.cache.tssBytes := h.gdtFirst.notMem_of_mem_left hgdt
    have hsecond : a ∉ d.tssBytes := h.gdtSecond.notMem_of_mem_left hgdt
    rw [if_pos ha, ← ha, update_self, leave_call]
    have hlink : ¬ (d.tssBase.toNat ≤ a ∧ a < d.tssBase.toNat + 2) := by
      rw [mem_tssBytes] at hsecond
      omega
    have : ((s.saveState (s.oldEflags d)).writeLink d).mem a = s.mem a := by
      refine (if_neg hlink).trans (saveState_of_not_mem h.first_isTss386 hfirst)
    rw [this]
  · rw [if_neg ha, update_of_ne ha]
    rfl

/-- The first TSS, the second TSS and the descriptor of the first one are not touched when
the second task's segments are loaded. -/
theorem untouched (ht : e.enter.run s = .ok .switched t)
    (hb : Begun (s.finalEflags d e.source) (s.arrive sel d e.source) t) {a : Nat}
    (ha : a ∈ s.tr.cache.tssBytes ∨ a ∈ d.tssBytes ∨
      s.gdtEntry s.tr.selector ≤ a ∧ a < s.gdtEntry s.tr.selector + 8 ∧
        ((s.arrive sel d e.source).mem (s.gdtEntry s.tr.selector + 5)).getLsbD 4 = false) :
    t.mem a = (s.arrive sel d e.source).mem a := by
  have hgdtr := entered_gdtr hb
  rcases hb.mem a with hm | ⟨-, htouch⟩
  · exact hm
  exfalso
  have hs : (t.mem a).getLsbD 4 := htouch.1
  have hldt := h.ldtApart t ht
  have hcases := touchable_cases (by rw [hgdtr]; exact h.gdtTop) htouch
    (hb.ldtBase (by rw [arrive_eq]; rfl))
  rw [hgdtr] at hcases
  rcases hcases with ⟨j, hj, haj⟩ | hmem
  · have hgdt : a ∈ s.gdtBytes := by
      simp only [gdtBytes, Set.mem_Ico]
      omega
    rcases ha with ha | ha | ⟨hlo, hhi, hsys⟩
    · exact h.gdtFirst.notMem_of_mem_left hgdt ha
    · exact h.gdtSecond.notMem_of_mem_left hgdt ha
    · have : a = s.gdtEntry s.tr.selector + 5 := by
        unfold gdtEntry at *
        omega
      rw [hb.getLsbD (by omega : 4 ≠ 0), this, hsys] at hs
      cases hs
  · refine hldt.notMem_of_mem_left hmem ?_
    rcases ha with ha | ha | ⟨hlo, hhi, -⟩
    · exact .inl (.inr ha)
    · exact .inr ha
    · have := h.first.accessByte_mem (i := a - s.gdtEntry s.tr.selector) (by omega)
      rw [Nat.add_sub_cancel' hlo] at this
      exact .inl (.inl this)

theorem call_descriptor {i : Nat} (hi : i < 8) :
    (s.arrive sel d bxTaskFromCall).mem (s.gdtEntry s.tr.selector + i) =
      s.mem (s.gdtEntry s.tr.selector + i) := by
  have hgdt := h.first.accessByte_mem hi
  have hne := h.entries_apart
  have hsecond := h.gdtSecond.notMem_of_mem_left hgdt
  rw [mem_tssBytes] at hsecond
  rw [h.call_mem, if_neg (by omega), if_neg (by omega)]
  exact saveState_of_not_mem h.first_isTss386 (h.gdtFirst.notMem_of_mem_left hgdt)

theorem call_saved {a : Nat} (ha : a ∈ s.tr.cache.tssBytes) :
    (s.arrive sel d bxTaskFromCall).mem a = (s.saveState (s.oldEflags d)).mem a := by
  have hsecond := h.tssApart.notMem_of_mem_left ha
  have hgdt : a ∉ s.gdtBytes := h.gdtFirst.notMem_of_mem_right ha
  rw [mem_tssBytes] at hsecond
  rw [h.call_mem, if_neg ?_, if_neg (by omega)]
  rintro rfl
  exact hgdt (h.second.accessByte_mem (by omega))

theorem call_link :
    load (s.arrive sel d bxTaskFromCall).mem d.tssBase.toNat 2 = s.tr.selector.value := by
  apply eq_of_byteAt_eq
  intro i hi
  have hmem : d.tssBase.toNat + i ∈ d.tssBytes := mem_tssBytes.mpr (by omega)
  rw [byteAt_load hi, h.call_mem, if_neg ?_, if_pos (by omega), Nat.add_sub_cancel_left]
  intro heq
  refine h.gdtSecond.notMem_of_mem_right hmem ?_
  rw [heq]
  exact h.second.accessByte_mem (by omega)

end NestedTasks

section Entered

variable {s t : TaskProc} {e : TaskEntry} {sel : Selector} {d : BxDescriptor}
  {f source : BitVec 32} (h : NestedTasks s e sel d) (hb : Begun f (s.arrive sel d source) t)
include h hb

theorem entered_tss386 : t.tr.cache.isTss286 = false := by
  rw [entered_tr hb]
  show decide ((d.type ||| 2#4) ≤ 3#4) = false
  rw [h.second.type]
  decide

/-- Memory when the first task is read again. -/
theorem return_mem {oldEflags : BitVec 32} {a : Nat} (ha : a ∉ d.tssBytes) :
    ((t.clearBusy t.tr.selector).saveState oldEflags).mem a =
      if a = s.gdtEntry sel + 5 then t.mem a &&& ~~~2#8 else t.mem a := by
  have hgdtr := entered_gdtr hb
  have hbusy : t.busyAddr t.tr.selector = s.gdtEntry sel + 4 := by
    rw [entered_tr hb, busyAddr_of_global (by rw [hgdtr]; exact h.gdtTop)
      (by rw [hgdtr]; exact h.second.inGdt), gdtEntry, hgdtr, gdtEntry]
  have hnot : a ∉ (t.clearBusy t.tr.selector).tr.cache.tssBytes := by
    show a ∉ t.tr.cache.tssBytes
    rw [entered_tr hb]
    exact ha
  have h386 : t.tr.cache.isTss286 = false := entered_tss386 h hb
  rw [saveState_of_not_mem (s := t.clearBusy t.tr.selector) h386 hnot, clearBusy_mem, hbusy]
  split
  case isTrue heq => rw [heq, update_self]
  case isFalse hne => rw [update_of_ne hne]

end Entered

/-! ### A CALL and the return from it -/

section Call

variable {s t : TaskProc} {csRaw : BitVec 16} {sel : Selector} {d : BxDescriptor}
  (h : NestedTasks s (.call csRaw) sel d) (ht : (TaskEntry.call csRaw).enter.run s = .ok .switched t)
  (hb : Begun (s.finalEflags d bxTaskFromCall) (s.arrive sel d bxTaskFromCall) t)

include hb

theorem call_eflags : t.eflags =
    (s.eflags &&& ~~~eflagsValidMask) ||| (s.finalEflags d bxTaskFromCall &&& eflagsValidMask) := by
  rw [hb.eflags]
  show (s.writeEflags _ _).eflags = _
  unfold writeEflags
  rw [BitVec.and_self]

theorem call_eflags_bit {i : Nat} (hi : eflagsValidMask.getLsbD i = true) :
    t.eflags.getLsbD i = (s.finalEflags d bxTaskFromCall).getLsbD i := by
  rw [call_eflags hb, getLsbD_or, getLsbD_and, getLsbD_and, getLsbD_not, hi]
  simp

/-- An IRET in a virtual-8086 task does not look at NT. -/
theorem call_iretTarget_of_v86 (hvm : (s.finalEflags d bxTaskFromCall).getLsbD 17 = true) :
    t.iretTarget = .ok none := by
  have hvm' : t.eflags.getLsbD 17 = true := by rw [call_eflags_bit hb (by decide), hvm]
  unfold iretTarget
  rw [if_pos (.inl hvm')]

theorem return_eflags : (t.eflags &&& ~~~eflagsValidMask) ||| (s.eflags &&& eflagsValidMask) =
    s.eflags := by
  rw [call_eflags hb]
  apply eq_of_getLsbD_eq
  intro i hi
  simp only [getLsbD_or, getLsbD_and, getLsbD_not, decide_eq_true hi]
  cases eflagsValidMask.getLsbD i <;> simp

include h ht

theorem call_firstDescriptor {i : Nat} (hi : i < 8) :
    t.mem (s.gdtEntry s.tr.selector + i) = s.mem (s.gdtEntry s.tr.selector + i) := by
  have hsys : ((s.arrive sel d bxTaskFromCall).mem
      (s.gdtEntry s.tr.selector + 5)).getLsbD 4 = false := by
    rw [h.call_descriptor (by omega)]
    exact h.first.accessByte_system h.gdtTop
  rw [← h.call_descriptor hi]
  exact h.untouched ht hb (.inr (.inr ⟨by omega, by omega, hsys⟩))

theorem call_described : t.descriptorAt (t.descriptorAddr s.tr.selector) = s.tr.cache := by
  rw [← h.first.described, h.first.addr h.gdtTop rfl, h.first.addr h.gdtTop (entered_gdtr hb)]
  unfold descriptorAt
  rw [load_congr fun i hi => call_firstDescriptor h ht hb hi]

theorem call_backLink : load t.mem t.tr.cache.u.segmentBase.toNat 2 = s.tr.selector.value := by
  rw [entered_tr hb, ← h.call_link]
  rw [← h.second.tssBase]
  refine load_congr fun i hi => h.untouched ht hb (.inr (.inl ?_))
  exact mem_tssBytes.mpr (by omega)

theorem call_iretTarget (hvm : (s.finalEflags d bxTaskFromCall).getLsbD 17 = false) :
    t.iretTarget = .ok (some (s.tr.selector, s.tr.cache)) := by
  have hvm' : t.eflags.getLsbD 17 = false := by rw [call_eflags_bit hb (by decide), hvm]
  have hnt : t.eflags.getLsbD 14 = true := by
    rw [call_eflags_bit hb (by decide)]
    unfold finalEflags
    simp [eflagsNt]
  have hin : t.inTable s.tr.selector := by
    unfold inTable
    rw [h.first.global, entered_gdtr hb]
    simpa using h.first.inGdt
  unfold iretTarget
  rw [hvm', hnt, if_neg (by decide), call_backLink h ht hb]
  dsimp only
  rw [h.parsed, h.first.global, if_neg (by decide), TaskProc.fetchDescriptorOr, if_pos hin,
    call_described h ht hb]
  show (if _ then _ else _) = _
  rw [h.first.valid, h.first.system, h.first.type, h.first.present, if_neg (by decide),
    if_neg (by decide), if_neg (by decide)]

theorem return_saved {f : BitVec 32} {a : Nat} (ha : a ∈ s.tr.cache.tssBytes) :
    ((t.clearBusy t.tr.selector).saveState f).mem a = (s.saveState (s.oldEflags d)).mem a := by
  have hgdt : a ∉ s.gdtBytes := h.gdtFirst.notMem_of_mem_right ha
  rw [return_mem h hb (h.tssApart.notMem_of_mem_left ha), if_neg ?_, ← h.call_saved ha]
  · exact h.untouched ht hb (.inl ha)
  · rintro rfl
    exact hgdt (h.second.accessByte_mem (by omega))

/-- The LDT selector in the TSS of the running task. -/
def TaskProc.tssLdt (s : TaskProc) : BitVec 16 := load s.mem (s.tr.cache.tssBase.toNat + 0x60) 2

theorem return_slot (k : TssSlot) :
    (t.nextImage s.tr.cache bxTaskFromIret).slot k = s.slotValue s.eflags k := by
  have hold : s.oldEflags d = s.eflags := by
    unfold oldEflags
    rw [h.second.type, if_neg (by decide)]
  rw [← readSlot_saveState h.first_isTss386 h.first_top k, ← hold]
  unfold nextImage readImage
  rw [if_neg (by rw [h.first_isTss386]; decide), leave_unlinked _ _ (.inr rfl)]
  show readSlot _ _ k = _
  have hk := k.bounds
  unfold readSlot
  rw [load_congr fun i hi => return_saved h ht hb ?_]
  rw [toNat_add_ofNat (by omega) h.first_top]
  exact mem_tssBytes.mpr (by omega)

theorem return_ldt : (t.nextImage s.tr.cache bxTaskFromIret).ldt = s.tssLdt := by
  unfold nextImage readImage
  rw [if_neg (by rw [h.first_isTss386]; decide), leave_unlinked _ _ (.inr rfl)]
  rw [toNat_add_ofNat (by omega) h.first_top]
  refine load_congr fun i hi => ?_
  rw [return_saved h ht hb ?_]
  · exact saveState_of_outside h.first_isTss386 (by omega)
  · exact mem_tssBytes.mpr (by omega)

/-- The IRET switches back to the first task. -/
theorem call_returns (hvm : (s.finalEflags d bxTaskFromCall).getLsbD 17 = false) :
    ∃ u, iret.run t = .ok .switched u ∧ Begun (t.finalEflags s.tr.cache bxTaskFromIret)
      (t.arrive s.tr.selector s.tr.cache bxTaskFromIret) u := by
  have hbegin := eq_ok_of_succeeded (h.firstLoads t ht)
  refine ⟨_, transfer_switched (call_iretTarget h ht hb hvm) ?_ ?_ hbegin, beginTask_ok hbegin⟩
  · unfold newTssMax
    rw [h.first_isTss386]
    exact h.first.limit
  · unfold oldTssMax
    rw [entered_tss386 h hb, entered_tr hb]
    exact BitVec.le_trans (by decide) h.second.limit

theorem return_finalEflags : t.finalEflags s.tr.cache bxTaskFromIret = s.eflags := by
  unfold finalEflags
  rw [return_slot h ht hb]
  rfl

section Return

variable {u : TaskProc} (hu : Begun (t.finalEflags s.tr.cache bxTaskFromIret)
  (t.arrive s.tr.selector s.tr.cache bxTaskFromIret) u)

include hu

omit ht in
/-- The type of a system descriptor of the GDT, after the return. -/
theorem return_type {sel' : Selector} {d' : BxDescriptor} {type : BitVec 4} {x : BitVec 8}
    (h' : Tss386 s sel' d' type) (hx : t.mem (s.gdtEntry sel' + 5) = x)
    (hsys : x.getLsbD 4 = false) :
    (u.descriptorAt (u.descriptorAddr sel')).type =
      if s.gdtEntry sel' = s.gdtEntry sel then (x &&& ~~~2#8).setWidth 4 else x.setWidth 4 := by
  have hgdtr := (entered_gdtr hu).trans (entered_gdtr hb)
  have hnot := h.gdtSecond.notMem_of_mem_left (h'.accessByte_mem (by omega : 5 < 8))
  have harrive : (t.arrive s.tr.selector s.tr.cache bxTaskFromIret).mem (s.gdtEntry sel' + 5) =
      if s.gdtEntry sel' = s.gdtEntry sel then x &&& ~~~2#8 else x := by
    rw [arrive_mem_iret, return_mem h hb hnot, hx]
    simp only [Nat.add_right_cancel_iff]
  have hsys' : ((t.arrive s.tr.selector s.tr.cache bxTaskFromIret).mem
      (s.gdtEntry sel' + 5)).getLsbD 4 = false := by
    rw [harrive]
    split
    · rw [getLsbD_and, hsys, Bool.false_and]
    · exact hsys
  rw [h'.addr h.gdtTop hgdtr, descriptorAt_type, hu.of_system hsys', harrive]
  split <;> rfl

theorem return_firstBusy : (u.descriptorAt (u.descriptorAddr s.tr.selector)).type = 0xB#4 := by
  have hne := h.entries_apart
  rw [return_type h hb hu h.first (call_firstDescriptor h ht hb (by omega))
    (h.first.accessByte_system h.gdtTop), if_neg (by omega)]
  exact h.first.accessByte_type h.gdtTop

omit ht in
theorem return_secondAvailable : (u.descriptorAt (u.descriptorAddr sel)).type = 0x9#4 := by
  have hsys := h.second.accessByte_system h.gdtTop
  have htype := h.second.accessByte_type h.gdtTop
  have harrive := h.call_mem (s.gdtEntry sel + 5)
  rw [if_pos rfl] at harrive
  generalize s.mem (s.gdtEntry sel + 5) = x at hsys htype harrive
  have hsys' : (x ||| 2#8).getLsbD 4 = false := by
    rw [getLsbD_or, hsys]
    rfl
  have hx := hb.of_system (by rw [harrive]; exact hsys')
  rw [harrive] at hx
  rw [return_type h hb hu h.second hx hsys', if_pos rfl]
  clear hsys hsys' harrive hx
  revert x
  decide

/-- The first task is as it was left, but for its LDT selector: that is the one in its TSS. -/
theorem return_resumed : Resumed s u sel ↔ s.tssLdt = s.ldtr.selector.value := by
  have hldt : u.ldtr.selector.value = s.tssLdt := by
    rw [hu.ldtr, ← return_ldt h ht hb]
    rfl
  refine ⟨fun hr => by rw [← hldt, hr.ldt], fun hl => ?_⟩
  have hvalue := hu.value (by rw [return_finalEflags h ht hb]; exact h.protectedMode)
  refine ⟨?_, ?_, fun r => ?_, by rw [hldt, hl], ?_, ?_, return_firstBusy h ht hb hu,
    return_secondAvailable h hb hu⟩
  · rw [hu.eip]
    exact return_slot h ht hb .eip
  · rw [hu.gpr]
    funext r
    exact return_slot h ht hb (.gpr r)
  · rw [hvalue r]
    show ((t.nextImage s.tr.cache bxTaskFromIret).slot (.seg r)).setWidth 16 = _
    rw [return_slot h ht hb]
    simp [slotValue]
  · rw [hu.eflags]
    show (t.writeEflags _ _).eflags = _
    rw [return_finalEflags h ht hb]
    exact return_eflags hb
  · rw [hu.tr]
    rfl

end Return

end Call

/-! ### An interrupt -/

section Interrupt

variable {s t u : TaskProc} {vector : BitVec 8} {softInt : Bool} {sel : Selector} {d : BxDescriptor}
  (h : NestedTasks s (.interrupt vector softInt) sel d)

include h in
/-- The switch is made as a JMP: the first TSS is no longer busy. -/
theorem interrupt_clearsBusy : ((s.arrive sel d 0x2#32).mem
    (s.gdtEntry s.tr.selector + 5)).getLsbD 1 = false := by
  have hgdt := h.first.accessByte_mem (by omega : 5 < 8)
  have hne := h.entries_apart
  have h386 : (s.clearBusy s.tr.selector).tr.cache.isTss286 = false := h.first_isTss386
  have hleave := s.leave_unlinked d (.inl rfl)
  have hbusy₂ : (s.leave d 0x2#32).busyAddr sel = s.gdtEntry sel + 4 := by
    exact busyAddr_of_global h.gdtTop h.second.inGdt
  rw [arrive_mem _ _ _ _ (by decide), setBusy_mem,
    update_of_ne (by omega), hleave,
    saveState_of_not_mem h386 (h.gdtFirst.notMem_of_mem_left hgdt),
    clearBusy_mem, busyAddr_of_global h.gdtTop h.first.inGdt]
  simp

include h in
/-- No IRET that follows marks the first TSS busy again. -/
theorem interrupt_not_resumed (hb : Begun (s.finalEflags d 0x2#32) (s.arrive sel d 0x2#32) t)
    (hu : iret.run t = .ok .switched u) : ¬ Resumed s u sel := by
  intro hr
  obtain ⟨sel', d', -, hbegin⟩ := switched_inv hu
  have hu' := beginTask_ok hbegin
  have hgdt := h.first.accessByte_mem (by omega : 5 < 8)
  have hclear : (u.mem (s.gdtEntry s.tr.selector + 5)).getLsbD 1 = false := by
    rw [hu'.getLsbD (by omega), arrive_mem_iret,
      return_mem h hb (h.gdtSecond.notMem_of_mem_left hgdt)]
    have hne := h.entries_apart
    rw [if_neg (by omega), hb.getLsbD (by omega)]
    exact interrupt_clearsBusy h
  have hbusy := hr.firstBusy
  rw [h.first.addr h.gdtTop ((entered_gdtr hu').trans (entered_gdtr hb)),
    descriptorAt_type] at hbusy
  have hbit := congrArg (getLsbD · 1) hbusy
  simp only [getLsbD_setWidth, hclear] at hbit
  cases hbit

end Interrupt

/-! ## Nested tasks return -/

theorem switchedState_eq_some {r : EStateM.Result Fault TaskProc TaskTransfer} {u : TaskProc} :
    switchedState r = some u ↔ r = .ok .switched u := by
  unfold switchedState
  split <;> simp_all

theorem resumes_iff {s t : TaskProc} {e : TaskEntry} {sel : Selector}
    (ht : e.enter.run s = .ok .switched t) :
    Resumes s e sel ↔ ∃ u, iret.run t = .ok .switched u ∧ Resumed s u sel := by
  unfold Resumes TaskEntry.roundTrip
  rw [switchedState_eq_some.mpr ht]
  simp only [Option.bind_eq_bind, Option.bind_some, switchedState_eq_some]

def TaskEntry.isCall : TaskEntry → Bool
  | call _ => true
  | interrupt _ _ => false

/-- The first task is resumed exactly when the second one was entered by a CALL and is not a
virtual-8086 task, and the first task's TSS holds its LDT selector, which no switch saves. -/
theorem nested_task_returns_iff {s : TaskProc} {e : TaskEntry} {sel : Selector} {d : BxDescriptor}
    (h : NestedTasks s e sel d) :
    Resumes s e sel ↔ e.isCall ∧ (s.finalEflags d e.source).getLsbD 17 = false ∧
      s.tssLdt = s.ldtr.selector.value := by
  obtain ⟨t, ht, hb⟩ := h.entered
  rw [resumes_iff ht]
  cases e with
  | interrupt vector softInt =>
    refine iff_of_false ?_ nofun
    rintro ⟨u, hu, hr⟩
    exact interrupt_not_resumed h hb hu hr
  | call csRaw =>
    by_cases hvm : (s.finalEflags d bxTaskFromCall).getLsbD 17 = false
    · obtain ⟨u, hiret, hu⟩ := call_returns h ht hb hvm
      have hr := return_resumed h ht hb hu
      constructor
      · rintro ⟨u', hu', hr'⟩
        rw [hiret] at hu'
        cases hu'
        exact ⟨rfl, hvm, hr.mp hr'⟩
      · rintro ⟨-, -, hldt⟩
        exact ⟨u, hiret, hr.mpr hldt⟩
    · refine iff_of_false ?_ fun hc => hvm hc.2.1
      rintro ⟨u, hu, -⟩
      obtain ⟨sel', d', htarget, -⟩ := switched_inv hu
      rw [call_iretTarget_of_v86 hb (by simpa using hvm)] at htarget
      cases htarget

/-! ### Two tasks in one GDT -/

/-- A GDT at 0x1000 (code, data, a busy TSS, an available TSS, a task gate), the two TSSs at
0x2000 and 0x3000, and an IDT at 0x4000 with one task gate. -/
def taskMemory : Nat → BitVec 8 :=
  [(0x1008, 0x00CF9B000000FFFF#64), (0x1010, 0x00CF93000000FFFF#64),
    (0x1018, 0x00008B0020000067#64), (0x1020, 0x0000890030000067#64),
    (0x1028, 0x0000850000200000#64), (0x3020, 0x0000000200000100#64),
    (0x3048, 0x0000000800000010#64), (0x3050, 0x0000001000000010#64),
    (0x3058, 0x0000001000000010#64), (0x4000, 0x0000850000200000#64)].foldl
    (fun mem w => store mem w.1 8 w.2) fun _ => 0#8

/-- The first of the tasks, running. -/
def firstTask : TaskProc where
  mem := taskMemory
  gdtr := ⟨0x1000#64, 0x2F#16⟩
  idtr := ⟨0x4000#64, 7#16⟩
  ldtr := ⟨parseSelector 0#16, parseDescriptor 0#32 0#32⟩
  tr := ⟨parseSelector 0x18#16, parseDescriptor 0x20000067#32 0x00008B00#32⟩
  sregs := fun
    | .cs => ⟨parseSelector 0x08#16, parseDescriptor 0x0000FFFF#32 0x00CF9B00#32⟩
    | _ => ⟨parseSelector 0x10#16, parseDescriptor 0x0000FFFF#32 0x00CF9300#32⟩
  gpr := fun r => BitVec.ofNat 32 r.val
  eip := 0x200#32
  eflags := 0x202#32
  ts := false
  dr7 := 0x400#32
  trap := false

/-- The descriptor of the second task. -/
def secondTss : BxDescriptor := parseDescriptor 0x30000067#32 0x00008900#32

theorem firstTss_bytes : firstTask.tr.cache.tssBytes = Set.Ico 0x2000 0x2068 := by
  unfold tssBytes
  rw [show firstTask.tr.cache.tssBase.toNat = 0x2000 by decide +kernel]

theorem secondTss_bytes : secondTss.tssBytes = Set.Ico 0x3000 0x3068 := by
  unfold tssBytes
  rw [show secondTss.tssBase.toNat = 0x3000 by decide +kernel]

theorem firstTask_gdtBytes : firstTask.gdtBytes = Set.Ico 0x1000 0x1030 := rfl

theorem nestedTasks_firstTask {e : TaskEntry}
    (htarget : e.target firstTask = .ok (some (parseSelector 0x20#16, secondTss)))
    (hsecond : succeeded ((beginTask secondTss (firstTask.nextImage secondTss e.source)
      (firstTask.finalEflags secondTss e.source) none).run
      (firstTask.arrive (parseSelector 0x20#16) secondTss e.source)))
    (hfirst : (switchedState (e.enter.run firstTask)).all (fun t =>
      !t.ldtr.cache.valid.valid && succeeded ((beginTask firstTask.tr.cache
        (t.nextImage firstTask.tr.cache bxTaskFromIret)
        (t.finalEflags firstTask.tr.cache bxTaskFromIret) none).run
        (t.arrive firstTask.tr.selector firstTask.tr.cache bxTaskFromIret)))) :
    NestedTasks firstTask e (parseSelector 0x20#16) secondTss where
  protectedMode := by decide +kernel
  target := htarget
  first := by constructor <;> decide +kernel
  second := by constructor <;> decide +kernel
  parsed := by decide +kernel
  gdtTop := by decide +kernel
  tssApart := by
    rw [firstTss_bytes, secondTss_bytes, Set.Ico_disjoint_Ico]
    decide
  gdtFirst := by
    rw [firstTask_gdtBytes, firstTss_bytes, Set.Ico_disjoint_Ico]
    decide
  gdtSecond := by
    rw [firstTask_gdtBytes, secondTss_bytes, Set.Ico_disjoint_Ico]
    decide
  ldtApart t ht := by
    rw [switchedState_eq_some.mpr ht] at hfirst
    simp only [Option.all_some, Bool.and_eq_true, Bool.not_eq_true'] at hfirst
    refine Set.disjoint_left.mpr fun a ha => ?_
    rw [ldtBytes, Set.mem_ofPred_eq, hfirst.1] at ha
    cases ha.1
  secondLoads := hsecond
  firstLoads t ht := by
    rw [switchedState_eq_some.mpr ht] at hfirst
    simp only [Option.all_some, Bool.and_eq_true, Bool.not_eq_true'] at hfirst
    exact hfirst.2

theorem nested_task_call_returns :
    NestedTasks firstTask (.call 0x28#16) (parseSelector 0x20#16) secondTss ∧
      Resumes firstTask (.call 0x28#16) (parseSelector 0x20#16) := by
  have h : NestedTasks firstTask (.call 0x28#16) (parseSelector 0x20#16) secondTss :=
    nestedTasks_firstTask (by decide +kernel) (by decide +kernel) (by decide +kernel)
  exact ⟨h, (nested_task_returns_iff h).mpr ⟨rfl, by decide +kernel, by decide +kernel⟩⟩

/-- Vector 0 through the task gate: NT and the back link are not set, so the IRET stays in the
second task; the first TSS is not busy any more. -/
theorem interrupted_task_not_resumed :
    NestedTasks firstTask (.interrupt 0#8 false) (parseSelector 0x20#16) secondTss ∧
      ¬ Resumes firstTask (.interrupt 0#8 false) (parseSelector 0x20#16) ∧
      (switchedState ((TaskEntry.interrupt 0#8 false).enter.run firstTask)).all (fun t =>
        (t.descriptorAt (t.descriptorAddr firstTask.tr.selector)).type = 0x9#4 ∧
          ¬ t.eflags.getLsbD 14 ∧ (load t.mem 0x3000 2 : BitVec 16) = 0#16) := by
  refine ⟨nestedTasks_firstTask (by decide +kernel) (by decide +kernel) (by decide +kernel), ?_,
    by decide +kernel⟩
  rintro ⟨u, hu, -⟩
  have hnone : ((TaskEntry.interrupt 0#8 false).roundTrip firstTask).isNone := by decide +kernel
  rw [hu] at hnone
  cases hnone

end RustyBox
